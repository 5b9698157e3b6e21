import Walkthrough.Proofs.Arrivals
import Walkthrough.Proofs.Freezing
import Walkthrough.Proofs.Reachable

/-! Every run comes to an end. Calls go from level to level, and as there are only so many levels,
evaluations on each of them come to an end if those on the next do. On its way a run keeps to the
limits of its calls and of its loops. -/

namespace Walkthrough

/-- Something that is true of the names at each level of calls: what statements do to the names
keeps it, a call goes to the next level and comes back. -/
structure Scopes.Levels where
  here : Nat → Scopes → Prop
  renamed : ∀ {level : Nat} {s s' : Scopes}, here level s → s.Renamed (fun _ => True) s' →
    here level s'
  openCall : ∀ {level : Nat} {s : Scopes}, here level s → here (level + 1) s.openCall
  closeCall : ∀ {level : Nat} {s : Scopes}, here (level + 1) s → here level s.closeCall

namespace Exec

variable {W : Type} (levels : Scopes.Levels) (top : Nat)

/-- The state is on a level that calls may come to. -/
def Reaches (m : Machine W) : Prop :=
  ∃ level ≤ top, levels.here level m.scopes

end Exec

/-- The states on a level that calls may come to. -/
def Scopes.Levels.enclosure (W : Type) (levels : Levels) {level top : Nat} (here : level ≤ top) :
    Enclosure W where
  here m := levels.here level m.scopes
  passed := Exec.Reaches levels top
  passes names := ⟨level, here, names⟩
  quiet names _ scopes _ _ := scopes ▸ names
  cells names _ := names
  names := levels.renamed
  frames names _ := names

namespace Exec

variable {W : Type} {levels : Scopes.Levels} {level top : Nat}

/-- That evaluations on a level come to an end there is a discipline. -/
def endingStatements (W : Type) (levels : Scopes.Levels) {level top : Nat} (here : level ≤ top) :
    StatementDiscipline W :=
  (levels.enclosure W here).statements

section Calls

variable {S : Type} {pass : Value → Exec W Value} {exec : Caller W → S → Exec W Completion}

theorem arrives_enter {exec : S → Exec W Completion} (here : level ≤ top) (there : level + 1 ≤ top)
    {f : Function S} {args : List Value} {position : Position}
    (inside : (levels.enclosure W there).Arrives (insideCall pass exec f args position)
      fun _ => True) :
    (levels.enclosure W here).Arrives (enter pass exec f args position) fun _ => True := by
  intro m names
  refine EndsAs.enter ⟨level, here, names⟩ ?_
  have opened : levels.here (level + 1) m.scopes.openCall := levels.openCall names
  have came := inside { m with scopes := m.scopes.openCall } opened
  refine came.mono (fun _ => id) fun v m' holds => ?_
  have back := levels.closeCall holds.1
  exact ⟨⟨level, here, back⟩, back, trivial⟩

/-- Calls come to an end with as much room as there are levels left. -/
theorem callFunction_terminates
    (passes : ∀ (L : Discipline W) (t : L.Stage) v, L.good t v → L.holds t (pass v) L.good)
    (h : ∀ (L : StatementDiscipline W) call, L.Calls call →
      ∀ t s, L.holds t (exec call s) L.carries)
    (functions : List (Function S)) {level top room : Nat} (here : level ≤ top)
    (left : level + room = top) :
    (endingStatements W levels here).Calls (callFunction functions pass exec room) := by
  have hosts {level : Nat} (here : level ≤ top) : (endingStatements W levels here).Calls callHost :=
    fun _ name args position _ => (levels.enclosure W here).arrives_callHost name args position
  induction room generalizing level with
  | zero =>
      exact Discipline.resolve _ (hosts here) fun _ f _ position _ =>
        Enclosure.Arrives.raise (.infiniteRecursion f.name) position
  | succ room ih =>
      have there : level + 1 ≤ top := by omega
      have calls := ih there (by omega)
      refine Discipline.resolve _ (hosts here) fun _ f args position _ => ?_
      refine arrives_enter here there ?_
      exact (endingStatements W levels there).insideCall (t := ()) (h _ _ calls) f args position
        fun a _ t _ => passes _ t a trivial

end Calls

end Exec

namespace Scopes

theorem setCurrent_depth (s : Scopes) (frame : CallFrame) :
    (s.setCurrent frame).depth = s.depth := by
  cases s with
  | mk access shadowing globals calls => cases calls <;> rfl

theorem Renamed.depth {good : Value → Prop} {s s' : Scopes} (h : s.Renamed good s') :
    s'.depth = s.depth := by
  obtain ⟨frame, ⟨rfl, -⟩ | ⟨-, rfl, -⟩⟩ := h.frame
  · exact s.setCurrent_depth frame
  · rfl

/-- The level of a state is the number of calls in progress. -/
def depths : Levels where
  here level s := s.depth = level
  renamed here names := names.depth.trans here
  openCall here := congrArg Nat.succ here
  closeCall {level s} here := by
    change s.calls.tail.length = level
    rw [List.length_tail, show s.calls.length = level + 1 from here]
    rfl

end Scopes

/-- The calls in progress keep to their limit; and where no collection contains itself, copying ends
for every value, with the copy that is made of it. -/
structure Machine.InBounds {W : Type} (m : Machine W) : Prop where
  depth : m.scopes.depth ≤ 64
  freezes : m.heap.Acyclic → ∀ v, m.heap.Freezes v (m.heap.freeze v)

theorem Machine.inBounds_of_reaches {W : Type} {m : Machine W}
    (h : Exec.Reaches Scopes.depths callLimit m) : m.InBounds := by
  obtain ⟨level, below, depth⟩ := h
  refine ⟨?_, Heap.acyclic_iff_freezes.mp⟩
  rw [show m.scopes.depth = level from depth]
  exact below

namespace Language

variable {W : Type}

theorem Loaded.run_terminates {language : Language} {source : String} {loaded : Loaded W}
    (parsed : load W language source = .ok loaded) (levels : Scopes.Levels) :
    let L := Exec.endingStatements W levels (Nat.zero_le callLimit)
    L.holds () loaded.run fun _ => L.Calls := by
  intro L
  refine load_holds_of_calls L (Enclosure.statements_readsFunctions _) (fun functions => ?_)
    (fun functions => ?_) parsed
  · exact Exec.callFunction_terminates (fun L _ v _ => JikiScript.pass_holds L v)
      (fun L _ calls _ => JikiScript.exec_holds L calls) functions _ (Nat.zero_add _)
  · exact Exec.callFunction_terminates (fun L _ _ good => L.give good)
      (fun L _ calls _ => JavaScript.exec_holds L calls) functions _ (Nat.zero_add _)

/-- Every run of either language comes to an end. On its way the calls keep to their limit, and the
loop bodies entered by all its loops together are no more than may be; the rounds that its frames
tell of are among them, but for one that was refused. A limit is any number but the largest one,
past which a word cannot count. -/
theorem run_ends {language : Language} {source : String} {loaded : Loaded W}
    (parsed : load W language source = .ok loaded) (setup : Setup W)
    (limit : setup.features.maxIterations.toNat + 1 < 2 ^ 64)
    (call : Option (String × List Json)) :
    ∃ bodies ending, bodies ≤ setup.features.maxIterations.toNat ∧
      (outcome language source setup call).frames.countP Frame.opensRound ≤ bodies + 1 ∧
      Exec.Ends Machine.InBounds (loaded.whole call) (start setup source loaded.access) bodies
        ending ∧ (Exec.final ending).overflowed = false ∧
      outcome language source setup call = .ofEnding ending := by
  have runs := Loaded.run_terminates parsed Scopes.depths
  have whole := Loaded.whole_holds _ runs call
  have told := rounds_le_bodies parsed setup call
  obtain ⟨bodies, ends, features, counted, -⟩ := whole (start setup source loaded.access) rfl
  have fresh : (start setup source loaded.access).bodies = 0 := Nat.zero_min _
  rw [fresh, Nat.zero_add] at counted
  rw [counted] at told
  refine ⟨bodies, _, ?_, told, ends.mono fun _ => Machine.inBounds_of_reaches,
    whole_of_limit parsed setup limit call, outcome_eq parsed setup call⟩
  have same : (start setup source loaded.access).features = setup.features := rfl
  rw [← counted, Machine.bodies, features, same]
  exact Nat.min_le_right _ _

/-- A program with two loops, one inside a function that the other calls. -/
def countingDown : String :=
  "function down(n) \x7b while (n > 0) \x7b n = n - 1; \x7d \x7d\n" ++
  "for (let i = 0; i < 3; i++) \x7b down(i); \x7d"

theorem counting_down_ends :
    let setup : Setup Unit := { world := () }
    let o := outcome .javaScript countingDown setup none
    setup.features.maxIterations.toNat + 1 < 2 ^ 64 ∧ o.frames.countP Frame.opensRound = 6 ∧
      ∃ loaded bodies ending, load Unit .javaScript countingDown = .ok loaded ∧ bodies ≤ 10000 ∧
        6 ≤ bodies + 1 ∧ Exec.Ends Machine.InBounds (loaded.whole none)
          (start setup countingDown loaded.access) bodies ending ∧
        (Exec.final ending).overflowed = false ∧ o = .ofEnding ending := by
  intro setup o
  have limit : setup.features.maxIterations.toNat + 1 < 2 ^ 64 := by decide
  have rounds : o.frames.countP Frame.opensRound = 6 := by decide +kernel
  have parsed : (load Unit .javaScript countingDown).isOk = true := by decide +kernel
  cases loads : load Unit .javaScript countingDown with
  | error mistake =>
      rw [loads] at parsed
      cases parsed
  | ok loaded =>
      obtain ⟨bodies, ending, few, told, ends, whole, left⟩ := run_ends loads setup limit none
      exact ⟨limit, rounds, loaded, bodies, ending, rfl, few, rounds ▸ told, ends, whole, left⟩

end Language
end Walkthrough
