import Mathlib.Logic.Relation
import Walkthrough.Language
import Walkthrough.Proofs.JavaScriptDiscipline
import Walkthrough.Proofs.JikiScriptDiscipline

/-! Runs as steps. A step is what one small operation does to the state of a run, with the limit
that it keeps to; a run that fails ends with a halt, which may be the operation that broke a limit.
Every evaluation of either language is a sequence of steps, with a halt behind it when it fails. -/

namespace Walkthrough

namespace Machine

variable {W : Type}

/-- What an operation that succeeds does to the state of a run. -/
inductive Step : Machine W → Machine W → Prop
  | cells {m : Machine W} (heap : Heap) : Step m { m with heap }
  | names {m : Machine W} (scopes : Scopes) : Step m { m with scopes }
  | loops {m : Machine W} (depth : Nat) : Step m { m with loopDepth := depth }
  | writes {m : Machine W} (output : String) : Step m { m with host := m.host.log output }
  | counts {m : Machine W} : m.iterations < m.features.maxIterations →
      Step m m.countBody
  | records {m : Machine W} (line : Nat) (kind : String) (value : Option Snapshot)
      (step : Walkthrough.Step) : ¬ m.features.maxTime < m.host.time + m.features.timePerFrame →
      Step m (m.addFrame line (.success kind value step))
  | calls {m : Machine W} {f : HostFunction W} {args : List Snapshot} {json : Json} :
      f ∈ m.functions → (f.run args m.host).1 = .ok json →
      ¬ m.features.maxTime < (f.run args m.host).2.time → Step m (m.afterCall f args)

/-- What the operation that fails has done to the state by then. -/
inductive Halt : Machine W → Machine W → Prop
  | still {m : Machine W} : Halt m m
  | counts {m : Machine W} : Halt m m.countBody
  | records {m : Machine W} (line : Nat) (kind : String) (value : Option Snapshot)
      (step : Walkthrough.Step) : Halt m (m.addFrame line (.success kind value step))
  | calls {m : Machine W} {f : HostFunction W} (args : List Snapshot) (heap : Heap) :
      f ∈ m.functions → Halt m { m.afterCall f args with heap }

/-- Any number of steps. -/
abbrev Steps : Machine W → Machine W → Prop :=
  Relation.ReflTransGen Step

end Machine

/-- Every ending of the evaluation is reached in steps, a failure by a halt behind them, and `Q` is
true of every value it gives. -/
def Stepwise {W α : Type} (x : Exec W α) (Q : α → Prop) : Prop :=
  ∀ m, match x m with
    | .ok a m' => m.Steps m' ∧ Q a
    | .error _ m' => ∃ last, m.Steps last ∧ last.Halt m'

namespace Stepwise

variable {W α β : Type} {Q : α → Prop} {R : β → Prop}

theorem give {a : α} (h : Q a) : Stepwise (pure a : Exec W α) Q :=
  fun _ => ⟨.refl, h⟩

theorem andThen {x : Exec W α} {k : α → Exec W β} (hx : Stepwise x Q)
    (hk : ∀ a, Q a → Stepwise (k a) R) : Stepwise (x >>= k) R := by
  intro m
  have first := hx m
  rw [Exec.bind_apply]
  cases ran : x m with
  | error failure m' =>
      rw [ran] at first
      exact first
  | ok a m' =>
      rw [ran] at first
      obtain ⟨before, ok⟩ := first
      have second := hk a ok m'
      dsimp only
      cases next : k a m' with
      | error failure m'' =>
          rw [next] at second
          obtain ⟨last, between, halt⟩ := second
          exact ⟨last, before.trans between, halt⟩
      | ok b m'' =>
          rw [next] at second
          exact ⟨before.trans second.1, second.2⟩

theorem ofSteps {x : Exec W α} {next : Machine W → Machine W} {value : Machine W → α}
    (h : ∀ m, x m = .ok (value m) (next m)) (steps : ∀ m : Machine W, m.Steps (next m)) :
    Stepwise x fun _ => True := by
  intro m
  rw [h m]
  exact ⟨steps m, trivial⟩

theorem consult {g : Features → Heap → Except Fault α} (position : Position)
    (h : ∀ f h a, g f h = .ok a → Q a) : Stepwise (W := W) (Exec.consult position g) Q := by
  intro m
  rw [Exec.consult_apply]
  cases given : g m.features m.heap with
  | ok a => exact ⟨.refl, h _ _ a given⟩
  | error fault => exact ⟨m, .refl, .still⟩

theorem readName (name : String) (position : Position) :
    Stepwise (W := W) (Exec.readName name position) fun _ => True := by
  intro m
  rw [Exec.readName_apply]
  cases m.scopes.get name with
  | ok v => exact ⟨.refl, trivial⟩
  | error fault => exact ⟨m, .refl, .still⟩

theorem rename {x : Exec W Unit} {position : Position} {g : Scopes → Except Fault Scopes}
    (h : ∀ m, x m = match g m.scopes with
      | .ok scopes => .ok () { m with scopes }
      | .error fault => .error ⟨fault, position⟩ m) : Stepwise x fun _ => True := by
  intro m
  rw [h m]
  cases g m.scopes with
  | ok scopes => exact ⟨.single (.names scopes), trivial⟩
  | error fault => exact ⟨m, .refl, .still⟩

theorem rewrite (position : Position) (g : Heap → Except Fault Heap) :
    Stepwise (W := W) (Exec.rewrite position g) fun _ => True := by
  intro m
  rw [Exec.rewrite_apply]
  cases g m.heap with
  | ok heap => exact ⟨.single (.cells heap), trivial⟩
  | error fault => exact ⟨m, .refl, .still⟩

theorem countIteration (position : Position) :
    Stepwise (W := W) (Exec.countIteration position) fun _ => True := by
  intro m
  rw [Exec.countIteration_apply]
  by_cases many : m.features.maxIterations.toNat < m.iterations.toNat + 1
  · rw [if_pos many]
    exact ⟨m, .refl, .counts⟩
  · rw [if_neg many]
    exact ⟨.single (.counts (UInt64.lt_iff_toNat_lt.mpr (Nat.not_lt.mp many))), trivial⟩

theorem record (position : Position) (kind : String) (value : Option Snapshot) (step : Step) :
    Stepwise (W := W) (Exec.record position kind value step) fun _ => True := by
  intro m
  rw [Exec.record_apply]
  by_cases late : m.features.maxTime < m.host.time + m.features.timePerFrame
  · rw [if_pos late]
    exact ⟨m, .refl, .records _ _ _ _⟩
  · rw [if_neg late]
    exact ⟨.single (.records _ _ _ _ late), trivial⟩

theorem callHost (name : String) (args : List Value) (position : Position) :
    Stepwise (W := W) (Exec.callHost name args position) fun _ => True := by
  intro m
  obtain ⟨failure, ended⟩ | ⟨f, offered, failure, frozen, heap, ended⟩ |
    ⟨f, json, found, -, ran, inTime, ended⟩ := Exec.callHost_cases name args position m
  · rw [ended]
    exact ⟨m, .refl, .still⟩
  · rw [ended]
    exact ⟨m, .refl, .calls frozen heap offered⟩
  · rw [ended]
    have called : m.Step (m.afterCall f (args.map m.heap.freeze)) :=
      .calls (Exec.mem_of_hostFunction? found) ran inTime
    exact ⟨(Relation.ReflTransGen.single called).tail (.cells _), trivial⟩

theorem openBlock : Stepwise (W := W) Exec.openBlock fun _ => True :=
  ofSteps (fun _ => rfl) fun _ => .single (.names _)

theorem closeBlock : Stepwise (W := W) Exec.closeBlock fun _ => True :=
  ofSteps (fun _ => rfl) fun _ => .single (.names _)

def ofExpressions (W : Type) : Discipline W where
  Stage := Unit
  holds _ x Q := Stepwise x (Q ())
  good _ _ := True
  sound _ _ := True
  later _ := id
  give := give
  andThen hx hk := andThen hx fun a => hk () a le_rfl
  raise _ _ := fun m => ⟨m, .refl, .still⟩
  readHeap := ofSteps (x := Exec.heap) (fun _ => rfl) fun _ => .refl
  consult position _ h := consult position fun f heap a => h f heap a trivial
  readName := readName
  newList {_ xs} _ := ofSteps (x := Exec.newList xs) (fun _ => rfl) fun _ => .single (.cells _)
  newDict {_ es} _ _ := ofSteps (x := Exec.newDict es) (fun _ => rfl) fun _ => .single (.cells _)
  plain _ := trivial
  items _ _ _ _ := trivial
  entries _ _ _ _ := trivial

def discipline (W : Type) : CallDiscipline W where
  toDiscipline := ofExpressions W
  declare {_ v} name constant position _ :=
    rename (g := (·.declare name v constant)) (Exec.declare_apply name v constant position)
  assign {_ v} name position _ :=
    rename (g := (·.assign name v)) (Exec.assign_apply name v position)
  rewrite position _ _ := rewrite position _
  openBlock := openBlock
  closeBlock := closeBlock
  inFunction := ofSteps (x := Exec.inFunction) (fun _ => rfl) fun _ => .refl
  loopDepth := ofSteps (x := Exec.loopDepth) (fun _ => rfl) fun _ => .refl
  setLoopDepth depth :=
    ofSteps (x := Exec.setLoopDepth depth) (fun _ => rfl) fun _ => .single (.loops depth)
  log output := ofSteps (x := Exec.log output) (fun _ => rfl) fun _ => .single (.writes output)
  record position kind value _ _ := record position kind value _
  round position hb h :=
    (ofExpressions W).countedRound (fun _ => openBlock) (fun _ => closeBlock)
      (fun _ => countIteration) position (fun t le => (hb t le).holds
        fun _ position kind value step _ => record position kind value step) h
  loopWhile position ht hb hu :=
    andThen (ofSteps (x := Exec.iterationsLeft) (fun _ => rfl) fun _ => .refl) fun bound _ =>
      (ofExpressions W).loopWhileBounded (t := ()) (fun _ => countIteration) position
        (fun t => (ht t).holds fun _ position kind value step _ => record position kind value step)
        hb hu bound
  openCall := ofSteps (x := Exec.openCall) (fun _ => rfl) fun _ => .single (.names _)
  closeCall := ofSteps (x := Exec.closeCall) (fun _ => rfl) fun _ => .single (.names _)
  readFunctions h _ := fun m => h m m
  callHost := callHost

end Stepwise

namespace Language

variable {W : Type}

theorem load_holds_of_calls (L : StatementDiscipline W) (reads : L.ReadsFunctions)
    (jikiScript : ∀ functions, L.Calls (JikiScript.caller functions))
    (javaScript : ∀ functions, L.Calls (JavaScript.caller functions)) {t : L.Stage}
    {language : Language} {source : String} {loaded : Loaded W}
    (h : load W language source = .ok loaded) : L.holds t loaded.run fun _ => L.Calls := by
  cases language with
  | jikiScript =>
      simp only [load] at h
      split at h
      · cases h
        exact JikiScript.run_holds_of_calls L reads jikiScript _
      · cases h
  | javaScript =>
      simp only [load] at h
      split at h
      · cases h
        exact JavaScript.run_holds_of_calls L reads javaScript _
      · cases h

/-- Every discipline holds of every program of either language. -/
theorem load_holds (L : CallDiscipline W) {t : L.Stage} {language : Language} {source : String}
    {loaded : Loaded W} (h : load W language source = .ok loaded) :
    L.holds t loaded.run fun _ => L.Calls :=
  load_holds_of_calls L.toStatementDiscipline L.readFunctions
    (fun functions => JikiScript.callFunction_holds L functions callLimit)
    (JavaScript.caller_holds L) h

theorem thawAll_holds (L : Discipline W) {t : L.Stage} (args : List Json)
    (distinct : L.keyed → ∀ json ∈ args, json.Distinct := by exact False.elim) :
    L.holds t (thawAll args) fun t vs => ∀ v ∈ vs, L.good t v := by
  induction args generalizing t with
  | nil => exact L.give (List.forall_mem_nil _)
  | cons json rest ih =>
      have thawed := L.thaw (t := t) (Snapshot.ofJson json) fun keyed =>
        Snapshot.distinct_ofJson (distinct keyed json List.mem_cons_self)
      refine L.andThen thawed fun t v _ first => ?_
      have inner (keyed : L.keyed) (json) (member : json ∈ rest) :=
        distinct keyed json (List.mem_cons_of_mem _ member)
      refine L.andThen (ih inner) fun _ vs le others => L.give ?_
      exact List.forall_mem_cons.mpr ⟨L.later le first, others⟩

end Language
end Walkthrough
