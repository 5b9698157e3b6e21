import Walkthrough.Proofs.Causes
import Walkthrough.Proofs.Rounds

/-! Accounts of runs. An account says how far the state of a run may go and with which failures the
run may end. A discipline holds of every program; an account is kept by a program whose nodes keep
it, since what fails or is recorded depends on the node at which it happens. -/

namespace Walkthrough

/-- Frames, console and offered functions are the same: nothing happened that is left of a run. -/
structure Machine.Unmarked {W : Type} (m m' : Machine W) : Prop where
  frames : m'.frames = m.frames
  host : m'.host = m.host
  lines : m'.lines = m.lines
  functions : m'.functions = m.functions

structure Account (W : Type) where
  /-- How the state may go on. -/
  leads : Machine W → Machine W → Prop
  raises : Failure → Prop
  trans : ∀ {m m' m'' : Machine W}, leads m m' → leads m' m'' → leads m m''
  unmarked : ∀ {m m' : Machine W}, m.Unmarked m' → leads m m'
  enters : ∀ {m : Machine W} {f : HostFunction W} (args : List Snapshot) (heap : Heap),
    f ∈ m.functions → leads m { m.afterCall f args with heap }

namespace Account

variable {W α β : Type} (A : Account W)

/-- What began in the state may end so, and `Q` is true of the value that it gives. -/
def Allows (m : Machine W) (Q : α → Prop) : EStateM.Result Failure (Machine W) α → Prop
  | .ok a m' => A.leads m m' ∧ Q a
  | .error failure m' => A.leads m m' ∧ A.raises failure

/-- The evaluation keeps to the account, and `Q` is true of every value it gives. -/
def Holds (x : Exec W α) (Q : α → Prop) : Prop :=
  ∀ m, A.Allows m Q (x m)

abbrev any : α → Prop :=
  fun _ => True

def Reports (position : Position) : Prop :=
  ∀ fault, fault.IsCommon → A.raises ⟨fault, position⟩

def Records (position : Position) (kind : String) (value : Option Snapshot) (step : Step) : Prop :=
  ∀ m : Machine W, A.leads m (m.addFrame position.line (.success kind value step))

def Logs (position : Position) (kind : String) : Prop :=
  ∀ (m : Machine W) (v : Value), A.leads m
    ({ m with host := m.host.log (m.heap.output v) }.addFrame position.line
      (.success kind (some (m.heap.freeze v)) (.log (m.heap.freeze v))))

/-- A caller that keeps to the account wherever the node of the call may fail. -/
def Calls (call : Caller W) : Prop :=
  ∀ name args position, A.Reports position → A.Holds (call name args position) any

theorem still (m : Machine W) : A.leads m m :=
  A.unmarked ⟨rfl, rfl, rfl, rfl⟩

variable {A} {Q : α → Prop} {R : β → Prop} {position : Position}

theorem give {a : α} (given : Q a) : A.Holds (pure a) Q :=
  fun m => ⟨A.still m, given⟩

theorem andThen {x : Exec W α} {k : α → Exec W β} (hx : A.Holds x Q)
    (hk : ∀ a, Q a → A.Holds (k a) R) : A.Holds (x >>= k) R := by
  intro m
  have first := hx m
  rw [Exec.bind_apply]
  cases ran : x m with
  | error failure m' =>
      rw [ran] at first
      exact first
  | ok a m' =>
      rw [ran] at first
      obtain ⟨before, good⟩ := first
      have second := hk a good m'
      dsimp only
      cases next : k a m' with
      | error failure m'' =>
          rw [next] at second
          exact ⟨A.trans before second.1, second.2⟩
      | ok b m'' =>
          rw [next] at second
          exact ⟨A.trans before second.1, second.2⟩

theorem ofUnmarked {x : Exec W α} {value : Machine W → α} {next : Machine W → Machine W}
    (h : ∀ m, x m = .ok (value m) (next m)) (same : ∀ m : Machine W, m.Unmarked (next m)) :
    A.Holds x any := by
  intro m
  rw [h m]
  exact ⟨A.unmarked (same m), trivial⟩

theorem raise {fault : Fault} (allowed : A.raises ⟨fault, position⟩) :
    A.Holds (Exec.raise fault position) Q :=
  fun m => ⟨A.still m, allowed⟩

theorem orRaise {x : Except Fault α} (fails : FailsBy (fun fault => A.raises ⟨fault, position⟩) x) :
    A.Holds (Exec.orRaise position x) any := by
  cases x with
  | ok a => exact give trivial
  | error fault => exact raise (fails fault rfl)

theorem orReport {x : Except Fault α} (reports : A.Reports position) (fails : FailsCommonly x) :
    A.Holds (Exec.orRaise position x) any :=
  orRaise (fails.mono reports)

theorem orReportWrite {x : Except Fault α} (reports : A.Reports position)
    (writes : A.raises ⟨.targetNotModifiable, position⟩) (fails : FailsBy Fault.IsOfWrite x) :
    A.Holds (Exec.orRaise position x) any := by
  refine orRaise (fails.mono fun fault => ?_)
  rintro (common | rfl)
  · exact reports fault common
  · exact writes

section Reads

theorem features : A.Holds Exec.features any :=
  ofUnmarked (fun _ => rfl) fun _ => ⟨rfl, rfl, rfl, rfl⟩

theorem heap : A.Holds Exec.heap any :=
  ofUnmarked (fun _ => rfl) fun _ => ⟨rfl, rfl, rfl, rfl⟩

theorem freeze (v : Value) : A.Holds (Exec.freeze v) any :=
  ofUnmarked (fun _ => rfl) fun _ => ⟨rfl, rfl, rfl, rfl⟩

theorem inFunction : A.Holds Exec.inFunction any :=
  ofUnmarked (fun _ => rfl) fun _ => ⟨rfl, rfl, rfl, rfl⟩

theorem loopDepth : A.Holds Exec.loopDepth any :=
  ofUnmarked (fun _ => rfl) fun _ => ⟨rfl, rfl, rfl, rfl⟩

theorem iterationsLeft : A.Holds Exec.iterationsLeft any :=
  ofUnmarked (fun _ => rfl) fun _ => ⟨rfl, rfl, rfl, rfl⟩

theorem readName (name : String) (reports : A.Reports position) :
    A.Holds (Exec.readName name position) any := by
  intro m
  rw [Exec.readName_apply]
  cases got : m.scopes.get name with
  | ok v => exact ⟨A.still m, trivial⟩
  | error fault => exact ⟨A.still m, reports fault (m.scopes.get_fails name fault got)⟩

end Reads

section Writes

theorem newList (items : List Value) : A.Holds (Exec.newList items) any :=
  ofUnmarked (fun _ => rfl) fun _ => ⟨rfl, rfl, rfl, rfl⟩

theorem newDict (entries : List (String × Value)) : A.Holds (Exec.newDict entries) any :=
  ofUnmarked (fun _ => rfl) fun _ => ⟨rfl, rfl, rfl, rfl⟩

theorem setHeap (heap : Heap) : A.Holds (Exec.setHeap heap) any :=
  ofUnmarked (fun _ => rfl) fun _ => ⟨rfl, rfl, rfl, rfl⟩

theorem thaw (snapshot : Snapshot) : A.Holds (Exec.thaw snapshot) any :=
  ofUnmarked (fun _ => rfl) fun _ => ⟨rfl, rfl, rfl, rfl⟩

theorem openBlock : A.Holds Exec.openBlock any :=
  ofUnmarked (fun _ => rfl) fun _ => ⟨rfl, rfl, rfl, rfl⟩

theorem closeBlock : A.Holds Exec.closeBlock any :=
  ofUnmarked (fun _ => rfl) fun _ => ⟨rfl, rfl, rfl, rfl⟩

theorem openCall : A.Holds Exec.openCall any :=
  ofUnmarked (fun _ => rfl) fun _ => ⟨rfl, rfl, rfl, rfl⟩

theorem closeCall : A.Holds Exec.closeCall any :=
  ofUnmarked (fun _ => rfl) fun _ => ⟨rfl, rfl, rfl, rfl⟩

theorem setLoopDepth (depth : Nat) : A.Holds (Exec.setLoopDepth depth) any :=
  ofUnmarked (fun _ => rfl) fun _ => ⟨rfl, rfl, rfl, rfl⟩

theorem enterLoop : A.Holds Exec.enterLoop any :=
  ofUnmarked (fun _ => rfl) fun _ => ⟨rfl, rfl, rfl, rfl⟩

theorem leaveLoop : A.Holds Exec.leaveLoop any :=
  ofUnmarked (fun _ => rfl) fun _ => ⟨rfl, rfl, rfl, rfl⟩

variable (reports : A.Reports position)
include reports

theorem rename {x : Exec W Unit} {g : Scopes → Except Fault Scopes}
    (h : ∀ m, x m = match g m.scopes with
      | .ok scopes => .ok () { m with scopes }
      | .error fault => .error ⟨fault, position⟩ m)
    (fails : ∀ s, FailsCommonly (g s)) : A.Holds x any := by
  intro m
  rw [h m]
  cases made : g m.scopes with
  | ok scopes => exact ⟨A.unmarked ⟨rfl, rfl, rfl, rfl⟩, trivial⟩
  | error fault => exact ⟨A.still m, reports fault (fails m.scopes fault made)⟩

theorem declare (name : String) (v : Value) (constant : Bool) :
    A.Holds (Exec.declare name v constant position) any :=
  rename reports (Exec.declare_apply name v constant position) fun s =>
    s.declare_fails name v constant

theorem assign (name : String) (v : Value) : A.Holds (Exec.assign name v position) any :=
  rename reports (Exec.assign_apply name v position) fun s => s.assign_fails name v

theorem countIteration : A.Holds (Exec.countIteration position) any := by
  intro m
  rw [Exec.countIteration_apply]
  by_cases many : m.features.maxIterations.toNat < m.iterations.toNat + 1
  · rw [if_pos many]
    exact ⟨A.unmarked ⟨rfl, rfl, rfl, rfl⟩, reports _ trivial⟩
  · rw [if_neg many]
    exact ⟨A.unmarked ⟨rfl, rfl, rfl, rfl⟩, trivial⟩

theorem allows_record {kind : String} {value : Option Snapshot} {step : Step} {before m : Machine W}
    (leads : A.leads before (m.addFrame position.line (.success kind value step))) :
    A.Allows before any (Exec.record position kind value step m) := by
  rw [Exec.record_apply]
  by_cases late : m.features.maxTime < m.host.time + m.features.timePerFrame
  · rw [if_pos late]
    exact ⟨leads, reports _ trivial⟩
  · rw [if_neg late]
    exact ⟨leads, trivial⟩

theorem record {kind : String} {value : Option Snapshot} {step : Step}
    (records : A.Records position kind value step) :
    A.Holds (Exec.record position kind value step) any :=
  fun m => allows_record reports (records m)

end Writes

section Guards

variable {next : Unit → Exec W α} {fault : Fault} (raises : A.raises ⟨fault, position⟩)
  (h : A.Holds (next ()) Q)
include raises h

theorem unlessRaised {c : Prop} [Decidable c] :
    A.Holds (if c then Exec.raise fault position >>= next else next ()) Q := by
  split
  · exact andThen (Q := fun _ => False) (raise raises) fun _ never => never.elim
  · exact h

end Guards

theorem inBlock {body : Exec W α} (h : A.Holds body Q) : A.Holds (Exec.inBlock body) Q :=
  andThen openBlock fun _ _ => andThen h fun _ good => andThen closeBlock fun _ _ => give good

theorem inLoop {loop : Exec W α} (h : A.Holds loop Q) : A.Holds (Exec.inLoop loop) Q :=
  andThen enterLoop fun _ _ => andThen h fun _ good => andThen leaveLoop fun _ _ => give good

section Rounds

theorem afterRound {next : Exec W Completion} (c : Completion) (h : A.Holds next any) :
    A.Holds (match c with
      | .broke => pure .normal
      | .returned value => pure (.returned value)
      | .normal => next
      | .continued => next) any := by
  cases c with
  | normal => exact h
  | continued => exact h
  | broke => exact give trivial
  | returned value => exact give trivial

theorem loopTimes {body : Nat → Exec W Completion} (h : ∀ n, A.Holds (body n) any)
    (first count : Nat) : A.Holds (Exec.loopTimes body first count) any := by
  induction count generalizing first with
  | zero => exact give trivial
  | succ count ih => exact andThen (h first) fun c _ => afterRound c (ih (first + 1))

theorem loopOver {body : α → Exec W Completion} (h : ∀ item, A.Holds (body item) any)
    (items : List α) : A.Holds (Exec.loopOver body items) any := by
  induction items with
  | nil => exact give trivial
  | cons item rest ih => exact andThen (h item) fun c _ => afterRound c ih

variable (reports : A.Reports position)
include reports

theorem inRound {begin : Exec W Unit} {body : Exec W Completion} (hb : A.Holds begin any)
    (h : A.Holds body any) : A.Holds (Exec.inRound position begin body) any := by
  refine andThen (countIteration reports) fun _ _ => ?_
  exact inBlock (andThen hb fun _ _ => h)

theorem loopWhile {test : Exec W Bool} {body : Exec W Completion} {update : Exec W Unit}
    (ht : A.Holds test any) (hb : A.Holds body any) (hu : A.Holds update any) (bound : Nat) :
    A.Holds (Exec.loopWhile position test body update bound) any := by
  induction bound with
  | zero =>
      rw [Exec.loopWhile_zero]
      refine andThen ht fun holds _ => ?_
      cases holds with
      | false => exact give trivial
      | true =>
          refine andThen (countIteration reports) fun _ _ => ?_
          exact andThen features fun _ _ => raise (reports _ trivial)
  | succ bound ih =>
      rw [Exec.loopWhile_succ]
      refine andThen ht fun holds _ => ?_
      cases holds with
      | false => exact give trivial
      | true =>
          refine andThen (countIteration reports) fun _ _ => andThen hb fun c _ => ?_
          exact afterRound c (andThen hu fun _ _ => ih)

end Rounds

section Calls

theorem callHost : A.Calls Exec.callHost := by
  intro name args position reports m
  cases found : Exec.hostFunction? m.functions name with
  | none =>
      rw [Exec.callHost_apply, found]
      exact ⟨A.still m, reports _ trivial⟩
  | some f =>
      have offered := Exec.mem_of_hostFunction? found
      cases accepted : f.arity.accepts args.length with
      | false =>
          rw [Exec.callHost_apply, found]
          dsimp only
          rw [Exec.bind_apply, Exec.runHost_refused position accepted]
          exact ⟨A.still m, reports _ trivial⟩
      | true =>
          cases ran : (f.run (args.map m.heap.freeze) m.host).1 with
          | error failure =>
              have common : (failure.fault f.name).IsCommon := by
                cases failure <;> exact trivial
              rw [Exec.callHost_apply, found]
              dsimp only
              rw [Exec.bind_apply, Exec.runHost_apply position accepted, ran, Exec.answer_error]
              exact ⟨A.enters _ m.heap offered, reports _ common⟩
          | ok json =>
              rw [Exec.callHost_done position found accepted ran]
              dsimp only
              by_cases late : m.features.maxTime <
                  (m.afterCall f (args.map m.heap.freeze)).host.time
              · rw [if_pos late]
                exact ⟨A.enters _ _ offered, reports _ trivial⟩
              · rw [if_neg late]
                exact ⟨A.enters _ _ offered, trivial⟩

variable {S : Type}

theorem resolve {functions : List (Function S)}
    {run : Function S → List Value → Position → Exec W Value}
    (h : ∀ f ∈ functions, ∀ args position, A.Reports position →
      A.Holds (run f args position) any) : A.Calls (Exec.resolve functions run) := by
  intro name args position reports
  unfold Exec.resolve
  split
  · next f found =>
      split
      · exact raise (reports _ trivial)
      · exact h f (List.mem_of_find?_eq_some found) args position reports
  · exact callHost name args position reports

variable {pass : Value → Exec W Value} (passes : ∀ v, A.Holds (pass v) any)
include passes

theorem bindParams (reports : A.Reports position) (params : List String) (args : List Value) :
    A.Holds (Exec.bindParams pass position params args) any := by
  induction params generalizing args with
  | nil => exact give trivial
  | cons param params ih =>
      cases args with
      | nil => exact give trivial
      | cons arg args =>
          refine andThen (passes arg) fun v _ => ?_
          exact andThen (declare reports param v false) fun _ _ => ih args

omit passes in
theorem runBody {exec : S → Exec W Completion} {body : List S}
    (h : ∀ s ∈ body, A.Holds (exec s) any) : A.Holds (Exec.runBody exec body) any := by
  induction body with
  | nil => exact give trivial
  | cons s rest ih =>
      obtain ⟨first, others⟩ := List.forall_mem_cons.mp h
      refine andThen first fun c _ => ?_
      cases c with
      | returned v => exact give trivial
      | normal | broke | continued => exact ih others

theorem enter {exec : S → Exec W Completion} {f : Function S}
    (h : ∀ s ∈ f.body, A.Holds (exec s) any) (args : List Value) (reports : A.Reports position) :
    A.Holds (Exec.enter pass exec f args position) any := by
  refine andThen openCall fun _ _ => ?_
  refine andThen (bindParams passes reports f.params args) fun _ _ => ?_
  refine andThen loopDepth fun outer _ => andThen (setLoopDepth 0) fun _ _ => ?_
  refine andThen (runBody h) fun v _ => ?_
  exact andThen (setLoopDepth outer) fun _ _ => andThen closeCall fun _ _ => give trivial

theorem callFunction {exec : Caller W → S → Exec W Completion} {functions : List (Function S)}
    (h : ∀ call, A.Calls call → ∀ f ∈ functions, ∀ s ∈ f.body, A.Holds (exec call s) any)
    (room : Nat) : A.Calls (Exec.callFunction functions pass exec room) := by
  induction room with
  | zero => exact resolve fun f _ args position reports => raise (reports _ trivial)
  | succ room ih =>
      exact resolve fun f member args position reports =>
        enter passes (h _ ih f member) args reports

end Calls

section Programs

variable {S : Type}

/-- Functions are refused in place; those that are accepted are the functions of the program. -/
theorem hoist_cases (taken : String → Bool) (accepted declared : List (Function S)) :
    Exec.hoist taken accepted declared = .ok (accepted ++ declared) ∨
      ∃ f ∈ declared, ∃ fault : Fault, fault.IsCommon ∧
        Exec.hoist taken accepted declared = .error ⟨fault, f.position⟩ := by
  induction declared generalizing accepted with
  | nil => exact Or.inl (by rw [Exec.hoist, List.append_nil])
  | cons f rest ih =>
      unfold Exec.hoist
      split
      · exact Or.inr ⟨f, List.mem_cons_self, .functionAlreadyDefined f.name, trivial, rfl⟩
      · split
        · exact Or.inr ⟨f, List.mem_cons_self, .duplicateParameter _, trivial, rfl⟩
        · obtain all | ⟨g, member, refused⟩ := ih (accepted ++ [f])
          · rw [all, List.append_assoc]
            exact Or.inl rfl
          · exact Or.inr ⟨g, List.mem_cons_of_mem f member, refused⟩

theorem runAll {exec : S → Exec W Completion} {statements : List S}
    (h : ∀ s ∈ statements, A.Holds (exec s) any) : A.Holds (Exec.runAll exec statements) any := by
  induction statements with
  | nil => exact give trivial
  | cons s rest ih =>
      obtain ⟨first, others⟩ := List.forall_mem_cons.mp h
      exact andThen first fun _ _ => ih others

theorem offered : A.Holds (get : Exec W (Machine W)) any :=
  ofUnmarked (fun _ => rfl) fun _ => ⟨rfl, rfl, rfl, rfl⟩

end Programs

section Outside

theorem thawAll (args : List Json) : A.Holds (Language.thawAll args) any := by
  induction args with
  | nil => exact give trivial
  | cons json rest ih =>
      refine andThen (thaw (Snapshot.ofJson json)) fun _ _ => ?_
      exact andThen ih fun _ _ => give trivial

theorem callAfter {call : Caller W} (calls : A.Calls call) (outside : A.Reports {})
    (function : String) (args : List Json) :
    A.Holds (Language.callAfter call function args) any := by
  refine andThen (thawAll args) fun values _ => ?_
  refine andThen (calls function values {} outside) fun value _ => ?_
  exact andThen (freeze value) fun _ _ => give trivial

theorem whole {loaded : Language.Loaded W} (runs : A.Holds loaded.run A.Calls)
    (outside : A.Reports {}) (call : Option (String × List Json)) :
    A.Holds (loaded.whole call) any := by
  cases call with
  | none => exact andThen runs fun _ _ => give trivial
  | some asked => exact andThen runs fun _ calls => callAfter calls outside asked.1 asked.2

end Outside
end Account
end Walkthrough
