import Mathlib.Data.List.Forall2
import Walkthrough.Proofs.JikiScriptAccounts

/-! The console of a JikiScript program. As long as no host function writes, every line on it is
that of a log statement, and the frame of the statement stands for the line: the lines and these
frames are the same in number and order, in time and in what they show. -/

namespace Walkthrough

def HostFunction.IsSilent {W : Type} (f : HostFunction W) : Prop :=
  ∀ args host, (f.run args host).2.console = host.console

namespace Frame

def isOfLog (frame : Frame) : Bool :=
  match frame.ending with
  | .success kind _ _ => kind == "LogStatement"
  | .failure _ => false

/-- The line is of the time of the frame, and its output is that of the value the frame has. -/
def Wrote (frame : Frame) (line : LogLine) : Prop :=
  ∃ value step, frame.ending = .success "LogStatement" (some value) step ∧
    line = { time := frame.time, output := value.output }

end Frame

/-- The frames of log statements and the lines, one by one. -/
def Matched (frames : List Frame) (lines : List LogLine) : Prop :=
  List.Forall₂ Frame.Wrote (frames.filter Frame.isOfLog) lines

namespace Matched

variable {frames frames' : List Frame} {lines lines' : List LogLine} {frame : Frame}

theorem append (first : Matched frames lines) (second : Matched frames' lines') :
    Matched (frames ++ frames') (lines ++ lines') := by
  unfold Matched
  rw [List.filter_append]
  exact List.rel_append first second

theorem ofOther (other : frame.isOfLog = false) : Matched [frame] [] := by
  unfold Matched
  rw [List.filter_singleton, other]
  exact .nil

theorem ofLog {line : LogLine} (wrote : frame.Wrote line) : Matched [frame] [line] := by
  obtain ⟨value, step, ending, -⟩ := id wrote
  have logged : frame.isOfLog = true := by
    simp [Frame.isOfLog, ending]
  unfold Matched
  rw [List.filter_singleton, logged]
  exact .cons wrote .nil

end Matched

section Accounts

variable {W : Type}

namespace Machine

variable {m m' m'' : Machine W}

/-- What came to the frames matches what came to the console, if no host function writes. -/
structure Matches (m m' : Machine W) : Prop where
  functions : m'.functions = m.functions
  added : (∀ f ∈ m.functions, f.IsSilent) → ∃ frames lines,
    m'.frames.toList = m.frames.toList ++ frames ∧
    m'.host.console.toList = m.host.console.toList ++ lines ∧ Matched frames lines

namespace Matches

theorem ofSame (functions : m'.functions = m.functions) (frames : m'.frames = m.frames)
    (console : (∀ f ∈ m.functions, f.IsSilent) → m'.host.console = m.host.console) :
    m.Matches m' := by
  refine ⟨functions, fun silent => ⟨[], [], ?_, ?_, .nil⟩⟩
  · rw [frames, List.append_nil]
  · rw [console silent, List.append_nil]

theorem trans (first : m.Matches m') (second : m'.Matches m'') : m.Matches m'' := by
  refine ⟨second.functions.trans first.functions, fun silent => ?_⟩
  obtain ⟨frames, lines, shown, written, both⟩ := first.added silent
  obtain ⟨frames', lines', shown', written', both'⟩ := second.added (first.functions ▸ silent)
  refine ⟨frames ++ frames', lines ++ lines', ?_, ?_, both.append both'⟩
  · rw [shown', shown, List.append_assoc]
  · rw [written', written, List.append_assoc]

theorem addFrame (m : Machine W) (line : Nat) {ending : Ending}
    (other : ∀ kind value step, ending = .success kind value step → kind ≠ "LogStatement") :
    m.Matches (m.addFrame line ending) := by
  refine ⟨rfl, fun _ => ⟨[_], [], Array.toList_push, (List.append_nil _).symm, .ofOther ?_⟩⟩
  cases ending with
  | failure fault => rfl
  | success kind value step => exact beq_false_of_ne (other kind value step rfl)

theorem addFailure (m : Machine W) (failure : Failure) : m.Matches (m.addFailure failure) :=
  addFrame m failure.position.line nofun

theorem log (m : Machine W) (line : Nat) (value : Snapshot)
    (step : Walkthrough.Step) :
    m.Matches ({ m with host := m.host.log value.output }.addFrame line
      (.success "LogStatement" (some value) step)) := by
  refine ⟨rfl, fun _ => ⟨[_], [_], Array.toList_push, Array.toList_push, .ofLog ?_⟩⟩
  exact ⟨value, step, rfl, rfl⟩

/-- From a fresh state on, the whole console matches the frames. -/
theorem all (led : m.Matches m') (silent : ∀ f ∈ m.functions, f.IsSilent)
    (frames : m.frames = #[]) (console : m.host.console = #[]) :
    Matched m'.frames.toList m'.host.console.toList := by
  obtain ⟨added, lines, shown, written, both⟩ := led.added silent
  rw [shown, written, frames, console]
  exact both

end Matches
end Machine

/-- The account of the console and the frames. A run may fail in any way. -/
def Account.writing (W : Type) : Account W where
  leads := Machine.Matches
  raises _ := True
  trans := .trans
  unmarked same := .ofSame same.functions same.frames fun _ => by rw [same.host]
  enters args _ offered := .ofSame rfl rfl fun silent => silent _ offered args _

end Accounts

namespace JikiScript

variable {W : Type}

theorem Stmt.kind_of_isLog {s : Stmt} (logs : s.isLog = true) : s.kind = "LogStatement" := by
  cases s with
  | log => rfl
  | _ => cases logs

theorem Stmt.kind_of_not_isLog {s : Stmt} (other : s.isLog = false) : s.kind ≠ "LogStatement" := by
  cases s with
  | log => cases other
  | _ => simp [Stmt.kind]

/-- Only log statements write, and each writes its line right before its frame. -/
theorem Program.keeps_writing {program : Program} {fits : Position → Prop}
    (formed : ∀ s ∈ program, s.Formed fits true) : program.Keeps (Account.writing W) := by
  have anywhere (position : Position) : (Account.writing W).Reports position :=
    fun _ _ => trivial
  refine keeps_of_nodes formed (fun s _ => anywhere s.pos) fun s _ _ plain =>
    ⟨plain, fun _ _ node _ => anywhere node.pos, anywhere s.pos, fun _ => trivial, ?_, ?_⟩
  · intro other value step _ m
    refine Machine.Matches.addFrame m s.pos.line fun kind _ _ same => ?_
    cases same
    exact Stmt.kind_of_not_isLog other
  · intro logs m v
    rw [Stmt.kind_of_isLog logs]
    exact Machine.Matches.log m s.pos.line (m.heap.freeze v) _

end JikiScript

namespace Language

variable {W : Type}

theorem load_keeps_writing {source : String} {loaded : Loaded W}
    (parsed : load W .jikiScript source = .ok loaded) :
    (Account.writing W).Holds loaded.run (Account.writing W).Calls := by
  obtain ⟨program, read, same⟩ := load_jikiScript parsed
  rw [same]
  exact JikiScript.run_keeps (JikiScript.Program.keeps_writing (JikiScript.parse_formed read))

/-- The lines on the console of a JikiScript program are those of its log statements. The frames of
success of these statements stand for the lines, one by one and in order: a line has the time of its
frame, and its output is the output of the value in the frame. -/
theorem console_matches_log_frames (source : String) (setup : Setup W)
    (silent : ∀ f ∈ setup.functions, f.IsSilent) (call : Option (String × List Json)) :
    Matched (outcome .jikiScript source setup call).frames
      (outcome .jikiScript source setup call).console := by
  cases parsed : load W .jikiScript source with
  | error error =>
      rw [outcome_refused parsed setup call]
      exact .nil
  | ok loaded =>
      rw [outcome_eq parsed setup call]
      have led := Account.whole (load_keeps_writing parsed) (fun _ _ => trivial) call
        (start setup source loaded.access)
      cases ended : loaded.whole call (start setup source loaded.access) with
      | ok value m =>
          rw [ended] at led
          exact led.1.all silent rfl rfl
      | error failure m =>
          rw [ended] at led
          exact (led.1.trans (.addFailure m failure)).all silent rfl rfl

def sleeper : HostFunction Unit where
  name := "sleep"
  arity := .exactly 0
  run _ host := (.ok .null, host.fastForward 5)

theorem sleeper_isSilent : sleeper.IsSilent := by
  intro args host
  simp only [sleeper, Host.fastForward]

/-- What is told is told again by the function that is called for it; the last statement fails. -/
def telling : String :=
  "function tell with x do\n  log x\n  sleep()\n  return x\nend\n" ++
  "repeat 2 times do\n  log tell(\"a\")\nend\nlog y"

theorem told_lines_match :
    let setup : Setup Unit := { functions := [sleeper], world := () }
    let o := outcome .jikiScript telling setup none
    (∀ f ∈ setup.functions, f.IsSilent) ∧ o.frames.length = 11 ∧ o.success = false ∧
      o.console = [⟨1, "a"⟩, ⟨5004, "a"⟩, ⟨5006, "a"⟩, ⟨10009, "a"⟩] ∧
      Matched o.frames o.console := by
  intro setup o
  have silent := List.forall_mem_singleton.mpr sleeper_isSilent
  refine ⟨silent, by decide +kernel, by decide +kernel, by decide +kernel, ?_⟩
  exact console_matches_log_frames telling setup silent none

end Language
end Walkthrough
