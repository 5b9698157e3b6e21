import Walkthrough.Proofs.JavaScriptAccounts
import Walkthrough.Proofs.JikiScriptAccounts

/-! Where the frames of a run come from. Every frame of success is told by a statement of the
program, on the line of that statement; a frame of failure stands where a node of the program
failed, with a cause that such a node may have, unless it was the call from outside that failed. -/

namespace Walkthrough

section Frames

variable {W : Type} {tells : Nat → String → Walkthrough.Step → Prop} {raises : Failure → Prop}

namespace Frame

/-- The frame shows its line as the text has it, and tells of a success what may be told. -/
structure IsTold (tells : Nat → String → Step → Prop) (text : Nat → String) (frame : Frame) :
    Prop where
  code : frame.code = text frame.line
  ending : ∃ kind value step, frame.ending = .success kind value step ∧ tells frame.line kind step

/-- The frame shows the line of a failure that may be raised. -/
structure IsRaised (raises : Failure → Prop) (text : Nat → String) (frame : Frame) : Prop where
  code : frame.code = text frame.line
  ending : ∃ failure, frame.ending = .failure failure.fault ∧
    frame.line = failure.position.line ∧ raises failure

end Frame

namespace Machine

variable {m m' m'' : Machine W}

theorem lineText_eq (same : m'.lines = m.lines) : m'.lineText = m.lineText := by
  funext n
  cases n with
  | zero => rfl
  | succ n => rw [lineText, lineText, same]

theorem lineText_initial (features : Features) (source : String) (access : GlobalAccess)
    (functions : List (HostFunction W)) (seed : UInt64) (world : W) :
    (initial features source access functions seed world).lineText = Text.lineText source := by
  funext n
  cases n with
  | zero => rfl
  | succ n =>
      change (((Text.lines source).map Text.trim).toArray[n]?).getD "" =
        Text.trim ((Text.lines source)[n]?.getD "")
      rw [List.getElem?_toArray, List.getElem?_map]
      cases (Text.lines source)[n]? <;> rfl

/-- The second state has more frames than the first, and all of these are told. -/
structure ToldTo (tells : Nat → String → Walkthrough.Step → Prop) (m m' : Machine W) : Prop where
  lines : m'.lines = m.lines
  frames : ∃ added, m'.frames.toList = m.frames.toList ++ added ∧
    ∀ frame ∈ added, frame.IsTold tells m.lineText

namespace ToldTo

theorem ofSame (lines : m'.lines = m.lines) (frames : m'.frames = m.frames) :
    m.ToldTo tells m' :=
  ⟨lines, [], by rw [frames, List.append_nil], nofun⟩

theorem trans (first : m.ToldTo tells m') (second : m'.ToldTo tells m'') : m.ToldTo tells m'' := by
  obtain ⟨lines, before, eq, told⟩ := first
  obtain ⟨lines', after, eq', told'⟩ := second
  refine ⟨lines'.trans lines, before ++ after, ?_, ?_⟩
  · rw [eq', eq, List.append_assoc]
  · rw [lineText_eq lines] at told'
    exact List.forall_mem_append.mpr ⟨told, told'⟩

theorem addFrame (m : Machine W) {line : Nat} {kind : String} {value : Option Snapshot}
    {step : Walkthrough.Step} (told : tells line kind step) :
    m.ToldTo tells (m.addFrame line (.success kind value step)) := by
  refine ⟨rfl, [_], Array.toList_push, List.forall_mem_singleton.mpr ⟨rfl, ?_⟩⟩
  exact ⟨kind, value, step, rfl, told⟩

theorem all (told : m.ToldTo tells m') (fresh : m.frames = #[]) :
    ∀ frame ∈ m'.frames.toList, frame.IsTold tells m.lineText := by
  obtain ⟨-, added, eq, told⟩ := told
  rw [eq, fresh]
  exact told

theorem allWithFailure (told : m.ToldTo tells m') (fresh : m.frames = #[]) {failure : Failure}
    (raised : raises failure) : ∀ frame ∈ (m'.addFailure failure).frames.toList,
      frame.IsTold tells m.lineText ∨ frame.IsRaised raises m.lineText := by
  intro frame member
  rcases Array.mem_push.mp (Array.mem_toList_iff.mp member) with old | rfl
  · exact Or.inl (told.all fresh frame (Array.mem_toList_iff.mpr old))
  · exact Or.inr ⟨congrFun (lineText_eq told.lines) _, failure, rfl, rfl, raised⟩

end ToldTo
end Machine

/-- The account of what is told and raised. -/
def Account.telling (W : Type) (tells : Nat → String → Step → Prop) (raises : Failure → Prop) :
    Account W where
  leads := Machine.ToldTo tells
  raises
  trans := .trans
  unmarked same := .ofSame same.lines same.frames
  enters _ _ _ := .ofSame rfl rfl

end Frames

namespace JikiScript

/-- The failures of an expression, without those inside it. -/
def Expr.MayRaise (e : Expr) (failure : Failure) : Prop :=
  failure.position = e.pos ∧ failure.fault.IsCommon

/-- The failures of a statement, without those of its expressions and statements. -/
def Stmt.MayRaise (s : Stmt) (failure : Failure) : Prop :=
  failure.position = s.pos ∧
    (failure.fault.IsCommon ∨ s.changesElement = true ∧ failure.fault = .targetNotModifiable)

namespace Program

variable {W : Type} {program : Program}

def Tells (program : Program) (line : Nat) (kind : String) (step : Step) : Prop :=
  ∃ s ∈ Stmt.innerAll program, line = s.pos.line ∧ kind = s.kind ∧ s.Tells step

def MayRaise (program : Program) (failure : Failure) : Prop :=
  ∃ s ∈ Stmt.innerAll program, s.MayRaise failure ∨
    ∃ e ∈ s.own, ∃ node ∈ e.nodes, node.MayRaise failure

variable {fits : Position → Prop} {tells : Nat → String → Step → Prop} {raises : Failure → Prop}

/-- The program keeps to an account of all that its nodes tell and raise. -/
theorem keeps_telling (formed : ∀ s ∈ program, s.Formed fits true)
    (told : ∀ line kind step, program.Tells line kind step → tells line kind step)
    (within : ∀ failure, program.MayRaise failure → raises failure) :
    program.Keeps (Account.telling W tells raises) := by
  have reports (s : Stmt) (member : s ∈ Stmt.innerAll program) :
      (Account.telling W tells raises).Reports s.pos := fun fault common =>
    within ⟨fault, s.pos⟩ ⟨s, member, Or.inl ⟨rfl, Or.inl common⟩⟩
  refine keeps_of_nodes formed reports fun s member _ plain => ⟨plain, ?_, reports s member, ?_, ?_,
    ?_⟩
  · intro e own node inside fault common
    exact within ⟨fault, node.pos⟩ ⟨s, member, Or.inr ⟨e, own, node, inside, rfl, common⟩⟩
  · intro changes
    exact within ⟨.targetNotModifiable, s.pos⟩
      ⟨s, member, Or.inl ⟨rfl, Or.inr ⟨changes, rfl⟩⟩⟩
  · intro _ value step shown m
    exact Machine.ToldTo.addFrame m (told _ _ _ ⟨s, member, rfl, rfl, shown⟩)
  · intro logs m v
    have shown : s.Tells (.log (m.heap.freeze v)) := by
      cases s <;> trivial
    have written : m.ToldTo tells { m with host := m.host.log (m.heap.output v) } :=
      .ofSame rfl rfl
    exact written.trans (.addFrame _ (told _ _ _ ⟨s, member, rfl, rfl, shown⟩))

end Program
end JikiScript

namespace JavaScript

def Expr.MayRaise (e : Expr) (failure : Failure) : Prop :=
  failure.position = e.pos ∧
    (failure.fault.IsCommon ∨ e.isElement = true ∧ failure.fault = .targetNotModifiable)

def Stmt.MayRaise (s : Stmt) (failure : Failure) : Prop :=
  failure.position = s.pos ∧ failure.fault.IsCommon

namespace Program

variable {W : Type} {program : Program}

def Tells (program : Program) (line : Nat) (kind : String) (step : Step) : Prop :=
  ∃ s ∈ Stmt.innerAll program, line = s.pos.line ∧ kind = s.kind ∧ s.Tells step

def MayRaise (program : Program) (failure : Failure) : Prop :=
  ∃ s ∈ Stmt.innerAll program, s.MayRaise failure ∨
    ∃ e ∈ s.own, ∃ node ∈ e.nodes, node.MayRaise failure

variable {fits : Position → Prop} {tells : Nat → String → Step → Prop} {raises : Failure → Prop}

theorem writes_telling : Writes (Account.telling W tells raises) :=
  fun _ _ => Machine.ToldTo.ofSame rfl rfl

/-- The program keeps to an account of all that its nodes tell and raise. -/
theorem keeps_telling (formed : ∀ s ∈ program, s.Formed fits true)
    (told : ∀ line kind step, program.Tells line kind step → tells line kind step)
    (within : ∀ failure, program.MayRaise failure → raises failure) :
    program.Keeps (Account.telling W tells raises) := by
  have reports (s : Stmt) (member : s ∈ Stmt.innerAll program) :
      (Account.telling W tells raises).Reports s.pos := fun fault common =>
    within ⟨fault, s.pos⟩ ⟨s, member, Or.inl ⟨rfl, common⟩⟩
  refine keeps_of_nodes formed reports fun s member here plain => ⟨plain, ?_, reports s member, ?_⟩
  · intro e own node inside
    have stands := here.own e own node inside
    refine ⟨stands.sound, fun fault common => ?_, fun element => ?_⟩
    · exact within ⟨fault, node.pos⟩
        ⟨s, member, Or.inr ⟨e, own, node, inside, rfl, Or.inl common⟩⟩
    · exact within ⟨.targetNotModifiable, node.pos⟩
        ⟨s, member, Or.inr ⟨e, own, node, inside, rfl, Or.inr ⟨element, rfl⟩⟩⟩
  · intro value step shown m
    exact Machine.ToldTo.addFrame m (told _ _ _ ⟨s, member, rfl, rfl, shown⟩)

end Program
end JavaScript

namespace Language

variable {W : Type}

def Tells (language : Language) (source : String) (line : Nat) (kind : String) (step : Step) :
    Prop :=
  match language with
  | .jikiScript => ∃ program, JikiScript.parse source = .ok program ∧ program.Tells line kind step
  | .javaScript => ∃ program, JavaScript.parse source = .ok program ∧ program.Tells line kind step

def MayRaise (language : Language) (source : String) (failure : Failure) : Prop :=
  match language with
  | .jikiScript => ∃ program, JikiScript.parse source = .ok program ∧ program.MayRaise failure
  | .javaScript => ∃ program, JavaScript.parse source = .ok program ∧ program.MayRaise failure

/-- The failure is one of the call from outside, which stands nowhere in the source. -/
def IsOfEntry (failure : Failure) : Prop :=
  failure.position = {} ∧ failure.fault.IsCommon

theorem load_keeps {language : Language} {source : String} {loaded : Loaded W}
    {raises : Failure → Prop} (parsed : load W language source = .ok loaded)
    (within : ∀ failure, language.MayRaise source failure → raises failure) :
    (Account.telling W (language.Tells source) raises).Holds loaded.run
      (Account.telling W (language.Tells source) raises).Calls := by
  cases language with
  | jikiScript =>
      obtain ⟨program, read, same⟩ := load_jikiScript parsed
      rw [same]
      refine JikiScript.run_keeps (JikiScript.Program.keeps_telling
        (JikiScript.parse_formed read) (fun _ _ _ told => ?_) fun failure raised => ?_)
      · exact ⟨program, read, told⟩
      · exact within failure ⟨program, read, raised⟩
  | javaScript =>
      obtain ⟨program, read, same⟩ := load_javaScript parsed
      rw [same]
      refine JavaScript.run_keeps JavaScript.Program.writes_telling
        (JavaScript.Program.keeps_telling (JavaScript.parse_formed read)
          (fun _ _ _ told => ?_) fun failure raised => ?_)
      · exact ⟨program, read, told⟩
      · exact within failure ⟨program, read, raised⟩

section Outcomes

variable {language : Language} {source : String} {loaded : Loaded W} {setup : Setup W}

theorem lineText_start (setup : Setup W) (source : String) (access : GlobalAccess) :
    (start setup source access).lineText = Text.lineText source :=
  Machine.lineText_initial ..

theorem hasFailure_of_told {tells : Nat → String → Step → Prop} {text : Nat → String}
    {frames : List Frame} (told : ∀ frame ∈ frames, frame.IsTold tells text) :
    hasFailure frames = false := by
  refine List.any_eq_false.mpr fun frame member => ?_
  obtain ⟨-, kind, value, step, ending, -⟩ := told frame member
  simp [Frame.isFailure, ending]

variable (parsed : load W language source = .ok loaded)
include parsed

theorem told_of_ran {caller : Caller W} {m : Machine W}
    (ran : loaded.run (start setup source loaded.access) = .ok caller m) :
    (start setup source loaded.access).ToldTo (language.Tells source) m := by
  have held := load_keeps parsed (fun _ => id) (start setup source loaded.access)
  rw [ran] at held
  exact held.1

theorem interpret_succeeds {caller : Caller W} {m : Machine W}
    (ran : loaded.run (start setup source loaded.access) = .ok caller m) :
    (interpret language source setup).success = true := by
  rw [interpret_eq parsed setup, Exec.bind_apply, ran]
  change (!hasFailure m.frames.toList) = true
  rw [hasFailure_of_told ((told_of_ran parsed ran).all rfl)]
  rfl

theorem origin_of_failed (call : Option (String × List Json)) {failure : Failure} {m : Machine W}
    (ran : loaded.run (start setup source loaded.access) = .error failure m) :
    let begun := start setup source loaded.access
    ∀ frame ∈ (Outcome.ofEnding (loaded.whole call begun)).frames,
      frame.IsTold (language.Tells source) begun.lineText ∨
      frame.IsRaised (language.MayRaise source) begun.lineText := by
  intro begun frame member
  have held := load_keeps parsed (fun _ => id) begun
  have ended : loaded.whole call begun = .error failure m := by
    cases call with
    | none | some asked => exact (Exec.bind_apply _ _ begun).trans (by rw [ran])
  rw [ran] at held
  rw [ended] at member
  exact held.1.allWithFailure rfl held.2 frame member

theorem origin_of_ran (call : Option (String × List Json)) {caller : Caller W} {m : Machine W}
    (ran : loaded.run (start setup source loaded.access) = .ok caller m) :
    let begun := start setup source loaded.access
    ∀ frame ∈ (Outcome.ofEnding (loaded.whole call begun)).frames,
      frame.IsTold (language.Tells source) begun.lineText ∨
      frame.IsRaised (language.MayRaise source) begun.lineText ∨
      call.isSome = true ∧ frame.IsRaised IsOfEntry begun.lineText := by
  intro begun frame member
  let raises (failure : Failure) : Prop := language.MayRaise source failure ∨ IsOfEntry failure
  let account := Account.telling W (language.Tells source) raises
  have held : account.Allows begun account.Calls (loaded.run begun) :=
    load_keeps parsed (fun _ => Or.inl) begun
  rw [ran] at held
  obtain ⟨told, calls⟩ := held
  cases call with
  | none =>
      have ended : loaded.whole none begun = .ok none m :=
        (Exec.bind_apply _ _ begun).trans (by rw [ran]; rfl)
      rw [ended] at member
      exact Or.inl (told.all rfl frame member)
  | some asked =>
      have ended : loaded.whole (some asked) begun = callAfter caller asked.1 asked.2 m :=
        (Exec.bind_apply _ _ begun).trans (by rw [ran])
      have outside : account.Reports {} := fun fault common => Or.inr ⟨rfl, common⟩
      have after := Account.callAfter calls outside asked.1 asked.2 m
      rw [ended] at member
      cases last : callAfter caller asked.1 asked.2 m with
      | ok v m' =>
          rw [last] at member after
          exact Or.inl ((told.trans after.1).all rfl frame member)
      | error failure m' =>
          rw [last] at member after
          obtain told | ⟨code, failure, ending, line, raised | entry⟩ :=
            (told.trans after.1).allWithFailure rfl after.2 frame member
          · exact Or.inl told
          · exact Or.inr (Or.inl ⟨code, failure, ending, line, raised⟩)
          · exact Or.inr (Or.inr ⟨rfl, code, failure, ending, line, entry⟩)

end Outcomes

/-- Every frame of a run is told by a statement or raised by a node of its program, or it is raised
by the call from outside, once the program has run without a failure. -/
theorem frames_have_origins (language : Language) (source : String) (setup : Setup W)
    (call : Option (String × List Json)) :
    ∀ frame ∈ (outcome language source setup call).frames,
      frame.IsTold (language.Tells source) (Text.lineText source) ∨
      frame.IsRaised (language.MayRaise source) (Text.lineText source) ∨
      call.isSome = true ∧ (interpret language source setup).success = true ∧
        frame.IsRaised IsOfEntry (Text.lineText source) := by
  intro frame member
  cases parsed : load W language source with
  | error error =>
      rw [outcome_refused parsed setup call] at member
      cases member
  | ok loaded =>
      rw [outcome_eq parsed setup call] at member
      rw [← lineText_start setup source loaded.access]
      cases ran : loaded.run (start setup source loaded.access) with
      | error failure m =>
          obtain told | raised := origin_of_failed parsed call ran frame member
          · exact Or.inl told
          · exact Or.inr (Or.inl raised)
      | ok caller m =>
          obtain told | raised | ⟨asked, entry⟩ := origin_of_ran parsed call ran frame member
          · exact Or.inl told
          · exact Or.inr (Or.inl raised)
          · exact Or.inr (Or.inr ⟨asked, interpret_succeeds parsed ran, entry⟩)

end Language
end Walkthrough
