import Walkthrough.Proofs.Keys
import Walkthrough.Proofs.Permissive

/-! Disciplines: properties of evaluations that the small operations have and that going from one
evaluation to the next keeps. Evaluation in either language is made of the small operations only, so
each discipline holds of every program; a property of runs is proved by saying which discipline it
is. A discipline may also keep track of values: at each stage of a run it names the good ones, and
its operations take and give good values only. -/

namespace Walkthrough

/-- What one write can do to the cells: new items for a list cell or new entries for a dictionary
cell, of good values only. -/
inductive Heap.Written (good : Value → Prop) (h : Heap) : Heap → Prop
  | items {cell : Nat} {xs : List Value} : good (.list cell) → (∀ x ∈ xs, good x) →
      Written good h (h.setItems cell xs)
  | entries {cell : Nat} {es : List (String × Value)} : good (.dict cell) →
      (∀ e ∈ es, good e.2) → Written good h (h.setEntries cell es)

/-- The step tells of a round of a loop, before the body is run. -/
def Step.opensRound : Step → Bool
  | .iterate .. => true
  | .visit .. => true
  | .condition kind holds => holds && (kind == "while" || kind == "for")
  | _ => false

theorem Step.opensRound_if (holds : Bool) : (Step.condition "if" holds).opensRound = false := by
  cases holds <;> decide

/-- A returned value, if there is one, is good. -/
def Completion.Carries (good : Value → Prop) : Completion → Prop
  | .returned v => good v
  | _ => True

theorem Heap.distinct_of_unkeyed {h : Heap} (unkeyed : False) : h.Distinct :=
  unkeyed.elim

/-- What expressions without stores are made of. `holds t x Q` says that the evaluation `x`, begun
at the stage `t`, is held to the discipline and that `Q` is true of every value it gives, at the
stage in which it gives it. -/
structure Discipline (W : Type) where
  /-- How far a run has come. -/
  Stage : Type
  [order : Preorder Stage]
  holds : {α : Type} → Stage → Exec W α → (Stage → α → Prop) → Prop
  /-- The values that the discipline lets through. -/
  good : Stage → Value → Prop
  /-- What it keeps true of the cells. -/
  sound : Stage → Heap → Prop
  /-- Whether it counts on distinct keys: then it asks for them wherever a dictionary is made,
  thawed or recorded. -/
  keyed : Prop := False
  distinct : ∀ {t : Stage} {h : Heap}, keyed → sound t h → h.Distinct := by
    exact fun unkeyed _ => Heap.distinct_of_unkeyed unkeyed
  /-- What is good stays good. -/
  later : ∀ {t t' : Stage} {v : Value}, t ≤ t' → good t v → good t' v
  give : ∀ {α : Type} {t : Stage} {a : α} {Q : Stage → α → Prop}, Q t a → holds t (pure a) Q
  andThen : ∀ {α β : Type} {t : Stage} {x : Exec W α} {k : α → Exec W β} {Q : Stage → α → Prop}
    {R : Stage → β → Prop}, holds t x Q → (∀ t' a, t ≤ t' → Q t' a → holds t' (k a) R) →
    holds t (x >>= k) R
  raise : ∀ {α : Type} {t : Stage} {Q : Stage → α → Prop} (fault : Fault) (position : Position),
    holds t (Exec.raise fault position) Q
  readHeap : ∀ {t : Stage}, holds t Exec.heap sound
  consult : ∀ {α : Type} {t : Stage} {Q : Stage → α → Prop}
    {g : Features → Heap → Except Fault α} (position : Position), Permissive g →
    (∀ f h a, sound t h → g f h = .ok a → Q t a) → holds t (Exec.consult position g) Q
  readName : ∀ {t : Stage} (name : String) (position : Position),
    holds t (Exec.readName name position) good
  newList : ∀ {t : Stage} {xs : List Value}, (∀ x ∈ xs, good t x) → holds t (Exec.newList xs) good
  newDict : ∀ {t : Stage} {es : List (String × Value)}, (∀ e ∈ es, good t e.2) →
    (keyed → KeysDistinct es) → holds t (Exec.newDict es) good
  plain : ∀ {t : Stage} {v : Value}, v.isCollection = false → good t v
  items : ∀ {t : Stage} {h : Heap} {cell : Nat}, sound t h → good t (.list cell) →
    ∀ x ∈ h.items cell, good t x
  entries : ∀ {t : Stage} {h : Heap} {cell : Nat}, sound t h → good t (.dict cell) →
    ∀ e ∈ h.entries cell, good t e.2

attribute [instance] Discipline.order

namespace Discipline

variable {W α : Type} (L : Discipline W)

abbrev any : L.Stage → α → Prop :=
  fun _ _ => True

abbrev carries (t : L.Stage) : Completion → Prop :=
  Completion.Carries (L.good t)

/-- A caller that takes and gives good values. -/
def Calls (call : Caller W) : Prop :=
  ∀ t name args position, (∀ a ∈ args, L.good t a) → L.holds t (call name args position) L.good

/-- An evaluation that may open a round of a loop. All it does before its last frame is held to the
discipline; if that frame tells of a round, the value that is given says so. -/
inductive Opens : {α : Type} → L.Stage → Exec W α → (α → Bool) → Prop
  | nothing {α : Type} {t : L.Stage} {x : Exec W α} {opened : α → Bool} : L.holds t x L.any →
      Opens t x opened
  | records {t : L.Stage} {opened : Unit → Bool} {step : Step} (position : Position)
      (kind : String) (value : Option Snapshot) : (step.opensRound = true → opened () = true) →
      (L.keyed → (Ending.success kind value step).Distinct) →
      Opens t (Exec.record position kind value step) opened
  | andThen {α β : Type} {t : L.Stage} {x : Exec W α} {k : α → Exec W β} {Q : L.Stage → α → Prop}
      {opened : β → Bool} : L.holds t x Q →
      (∀ t' a, t ≤ t' → Q t' a → Opens t' (k a) opened) → Opens t (x >>= k) opened
  | gives {α : Type} {t : L.Stage} {x : Exec W Unit} {a : α} {opened : α → Bool} :
      Opens t x (fun _ => opened a) → Opens t (x >>= fun _ => pure a) opened

end Discipline

/-- What expressions with stores are made of besides. -/
structure StoreDiscipline (W : Type) extends Discipline W where
  assign : ∀ {t : Stage} {v : Value} (name : String) (position : Position), good t v →
    holds t (Exec.assign name v position) toDiscipline.any
  rewrite : ∀ {t : Stage} {g : Heap → Except Fault Heap} (position : Position),
    (∀ h h', sound t h → g h = .ok h' → h.Written (good t) h') →
    (∀ h h', h.Distinct → g h = .ok h' → h'.Distinct) →
    holds t (Exec.rewrite position g) toDiscipline.any
  log : ∀ {t : Stage} (output : String), holds t (Exec.log output) toDiscipline.any

/-- What statements are made of besides. -/
structure StatementDiscipline (W : Type) extends StoreDiscipline W where
  declare : ∀ {t : Stage} {v : Value} (name : String) (constant : Bool) (position : Position),
    good t v → holds t (Exec.declare name v constant position) toDiscipline.any
  openBlock : ∀ {t : Stage}, holds t Exec.openBlock toDiscipline.any
  closeBlock : ∀ {t : Stage}, holds t Exec.closeBlock toDiscipline.any
  inFunction : ∀ {t : Stage}, holds t Exec.inFunction toDiscipline.any
  loopDepth : ∀ {t : Stage}, holds t Exec.loopDepth toDiscipline.any
  setLoopDepth : ∀ {t : Stage} (depth : Nat), holds t (Exec.setLoopDepth depth) toDiscipline.any
  record : ∀ {t : Stage} {step : Step} (position : Position) (kind : String)
    (value : Option Snapshot), step.opensRound = false →
    (keyed → (Ending.success kind value step).Distinct) →
    holds t (Exec.record position kind value step) toDiscipline.any
  round : ∀ {t : Stage} {begin : Exec W Unit} {body : Exec W Completion} (position : Position),
    (∀ t', t ≤ t' → toDiscipline.Opens t' begin fun _ => true) →
    (∀ t', holds t' body toDiscipline.carries) →
    holds t (Exec.inRound position begin body) toDiscipline.carries
  loopWhile : ∀ {t : Stage} {test : Exec W Bool} {body : Exec W Completion} {update : Exec W Unit}
    (position : Position), (∀ t', toDiscipline.Opens t' test id) →
    (∀ t', holds t' body toDiscipline.carries) → (∀ t', holds t' update toDiscipline.any) →
    holds t (Exec.iterationsLeft >>= Exec.loopWhile position test body update)
      toDiscipline.carries

/-- Of the whole state a program may look at the offered functions only. -/
def StatementDiscipline.ReadsFunctions {W : Type} (L : StatementDiscipline W) : Prop :=
  ∀ {α : Type} {t : L.Stage} {start : Machine W → Exec W α} {Q : L.Stage → α → Prop},
    (∀ m, L.holds t (start m) Q) → (∀ m m', m.functions = m'.functions → start m = start m') →
    L.holds t (get >>= start) Q

/-- What calls are made of besides. -/
structure CallDiscipline (W : Type) extends StatementDiscipline W where
  openCall : ∀ {t : Stage}, holds t Exec.openCall toDiscipline.any
  closeCall : ∀ {t : Stage}, holds t Exec.closeCall toDiscipline.any
  readFunctions : toStatementDiscipline.ReadsFunctions
  callHost : ∀ {t : Stage} (name : String) (args : List Value) (position : Position),
    holds t (Exec.callHost name args position) good

namespace Discipline

variable {W α β : Type} (L : Discipline W) {t : L.Stage}

theorem freeze (v : Value) : L.holds t (Exec.freeze v) fun _ s => L.keyed → s.Distinct := by
  change L.holds t (Exec.heap >>= fun h => pure (h.freeze v)) _
  refine L.andThen L.readHeap fun _ _ _ sound => L.give fun keyed => ?_
  exact (L.distinct keyed sound).freeze v

theorem unlessRaised {Q : L.Stage → α → Prop} {c : Prop} [Decidable c] {next : Unit → Exec W α}
    (fault : Fault) (position : Position) (h : ∀ t, L.holds t (next ()) Q) :
    L.holds t (if c then Exec.raise fault position >>= next else next ()) Q := by
  split
  · exact L.andThen (L.raise (Q := L.any) fault position) fun t _ _ _ => h t
  · exact h t

theorem consultThen {Q : α → Prop} {R : L.Stage → β → Prop} {g : Features → Heap → Except Fault α}
    {next : α → Exec W β} (position : Position) (permissive : Permissive g)
    (given : ∀ f h a, L.sound t h → g f h = .ok a → Q a)
    (h : ∀ t' a, t ≤ t' → Q a → L.holds t' (next a) R) :
    L.holds t (do
      let f ← Exec.features
      let h ← Exec.heap
      let a ← Exec.orRaise position (g f h)
      next a) R := by
  have both := L.andThen (L.consult (Q := fun _ => Q) position permissive given) h
  simpa only [Exec.consult, bind_assoc] using both

theorem putEntry_good {key : String} {v : Value} {es : List (String × Value)} (good : L.good t v)
    (h : ∀ e ∈ es, L.good t e.2) : ∀ e ∈ putEntry key v es, L.good t e.2 := by
  intro e member
  rcases mem_putEntry member with rfl | old
  · exact good
  · exact h e old

theorem iterable?_good {h : Heap} {v : Value} {items : List Value} (sound : L.sound t h)
    (good : L.good t v) (given : Exec.iterable? h v = some items) : ∀ x ∈ items, L.good t x := by
  intro x member
  cases v with
  | list cell =>
      cases given
      exact L.items sound good x member
  | text s =>
      cases given
      obtain ⟨c, -, rfl⟩ := List.mem_map.mp member
      exact L.plain rfl
  | number _ | boolean _ | dict _ | nothing => cases given

/-- How a loop goes on after a round: `next` is what is left of it. -/
theorem afterRound {next : Exec W Completion} (h : L.holds t next L.carries) (c : Completion)
    (carries : L.carries t c) :
    L.holds t (match c with
      | .broke => pure .normal
      | .returned value => pure (.returned value)
      | .normal => next
      | .continued => next) L.carries := by
  cases c with
  | normal => exact h
  | continued => exact h
  | broke => exact L.give trivial
  | returned value => exact L.give carries

theorem carries_later {t t' : L.Stage} {c : Completion} (le : t ≤ t') (h : L.carries t c) :
    L.carries t' c := by
  cases c with
  | returned v => exact L.later le h
  | normal | broke | continued => trivial

theorem Opens.holds {L : Discipline W} {t : L.Stage} {x : Exec W α} {opened : α → Bool}
    (h : L.Opens t x opened) (records : ∀ t position kind value step,
      (L.keyed → (Ending.success kind value step).Distinct) →
      L.holds t (Exec.record position kind value step) L.any) : L.holds t x L.any := by
  induction h with
  | nothing held => exact held
  | records position kind value _ shown => exact records _ position kind value _ shown
  | andThen held _ ih => exact L.andThen held ih
  | gives _ ih => exact L.andThen ih fun _ _ _ _ => L.give trivial

theorem resolve {S : Type} {functions : List (Function S)}
    {run : Function S → List Value → Position → Exec W Value} (hosts : L.Calls Exec.callHost)
    (h : ∀ t f args position, (∀ a ∈ args, L.good t a) → L.holds t (run f args position) L.good) :
    L.Calls (Exec.resolve functions run) := by
  intro t name args position good
  unfold Exec.resolve
  split
  · split
    · exact L.raise _ _
    · exact h t _ args position good
  · exact hosts t name args position good

section Blocks

variable (opens : ∀ t, L.holds t Exec.openBlock L.any)
  (closes : ∀ t, L.holds t Exec.closeBlock L.any)
include opens closes

theorem block {body : Exec W Completion} (h : ∀ t', t ≤ t' → L.holds t' body L.carries) :
    L.holds t (Exec.inBlock body) L.carries := by
  refine L.andThen (opens t) fun t _ le _ => L.andThen (h t le) fun t c _ carries => ?_
  exact L.andThen (closes t) fun _ _ le _ => L.give (L.carries_later le carries)

theorem countedRound {begin : Exec W Unit} {body : Exec W Completion}
    (counts : ∀ t position, L.holds t (Exec.countIteration position) L.any) (position : Position)
    (hb : ∀ t', t ≤ t' → L.holds t' begin L.any) (h : ∀ t, L.holds t body L.carries) :
    L.holds t (Exec.inRound position begin body) L.carries := by
  refine L.andThen (counts t position) fun _ _ le _ => ?_
  refine L.block opens closes fun t le' => ?_
  exact L.andThen (hb t (le.trans le')) fun t _ _ _ => h t

end Blocks

section Rounds

variable {body : Exec W Completion} {update : Exec W Unit}
  (counts : ∀ t position, L.holds t (Exec.countIteration position) L.any) (position : Position)
include counts

theorem noRound (holds : Bool) :
    L.holds t (if holds then do
        Exec.countIteration position
        Exec.raise (.tooManyIterations (← Exec.features).maxIterations.toNat) position
      else pure .normal) L.carries := by
  split
  · refine L.andThen (counts t position) fun t _ _ _ => ?_
    change L.holds t (Exec.consult position fun f _ =>
      .error (.tooManyIterations f.maxIterations.toNat)) _
    refine L.consult position (fun _ _ _ _ _ given => ?_) fun _ _ _ _ given => ?_
    · cases given
    · cases given
  · exact L.give trivial

/-- What follows the test of a loop that may begin a round; `next` is what is left of it. -/
theorem oneRound {next : Exec W Completion} (hb : ∀ t, L.holds t body L.carries)
    (h : ∀ t, L.holds t next L.carries) (holds : Bool) :
    L.holds t (if holds then do
        Exec.countIteration position
        match ← body with
        | .broke => pure .normal
        | .returned value => pure (.returned value)
        | .normal => next
        | .continued => next
      else pure .normal) L.carries := by
  split
  · refine L.andThen (counts t position) fun t _ _ _ => ?_
    exact L.andThen (hb t) fun t c _ carries => L.afterRound (h t) c carries
  · exact L.give trivial

theorem loopWhileBounded {test : Exec W Bool} (ht : ∀ t, L.holds t test L.any)
    (hb : ∀ t, L.holds t body L.carries) (hu : ∀ t, L.holds t update L.any) (bound : Nat) :
    L.holds t (Exec.loopWhile position test body update bound) L.carries := by
  induction bound generalizing t with
  | zero => exact L.andThen (ht t) fun _ holds _ _ => L.noRound counts position holds
  | succ bound ih =>
      have next (t : L.Stage) := L.andThen (hu t) fun _ _ _ _ => ih
      exact L.andThen (ht t) fun _ holds _ _ => L.oneRound counts position hb next holds

end Rounds

mutual

/-- Thawing makes one cell after the other, the inner ones first. -/
theorem thaw {t : L.Stage} :
    ∀ s : Snapshot, (L.keyed → s.Distinct) → L.holds t (Exec.thaw s) L.good
  | .number x, _ => L.give (L.plain (v := .number x) rfl)
  | .text s, _ => L.give (L.plain (v := .text s) rfl)
  | .boolean b, _ => L.give (L.plain (v := .boolean b) rfl)
  | .nothing, _ => L.give (L.plain (v := .nothing) rfl)
  | .list items, distinct => by
      have inner (keyed : L.keyed) := Snapshot.distinct_list_iff.mp (distinct keyed)
      exact L.andThen (thawItems items inner) fun _ _ _ good => L.newList good
  | .dict entries, distinct => by
      have inner (keyed : L.keyed) := Snapshot.distinct_dict_iff.mp (distinct keyed)
      have thawed := thawEntries (t := t) entries fun keyed => (inner keyed).2
      exact L.andThen thawed fun _ _ _ made =>
        L.newDict made.1 fun keyed => (inner keyed).1.of_keys made.2

theorem thawItems {t : L.Stage} :
    ∀ ss : List Snapshot, (L.keyed → ∀ s ∈ ss, s.Distinct) →
      L.holds t (Exec.thawItems ss) fun t vs => ∀ v ∈ vs, L.good t v
  | [], _ => L.give nofun
  | s :: rest, distinct => by
      have inner (keyed : L.keyed) := List.forall_mem_cons.mp (distinct keyed)
      change L.holds t (Exec.thaw s >>= fun v => Exec.thawItems rest >>= fun vs => pure (v :: vs)) _
      refine L.andThen (thaw s fun keyed => (inner keyed).1) fun _ v _ first => ?_
      refine L.andThen (thawItems rest fun keyed => (inner keyed).2) fun _ vs le others => ?_
      exact L.give (List.forall_mem_cons.mpr ⟨L.later le first, others⟩)

theorem thawEntries {t : L.Stage} :
    ∀ es : List (String × Snapshot), (L.keyed → ∀ e ∈ es, e.2.Distinct) →
      L.holds t (Exec.thawEntries es) fun t vs =>
        (∀ e ∈ vs, L.good t e.2) ∧ vs.map (·.1) = es.map (·.1)
  | [], _ => L.give ⟨nofun, rfl⟩
  | (key, s) :: rest, distinct => by
      have inner (keyed : L.keyed) := List.forall_mem_cons.mp (distinct keyed)
      change L.holds t
        (Exec.thaw s >>= fun v => Exec.thawEntries rest >>= fun vs => pure ((key, v) :: vs)) _
      refine L.andThen (thaw s fun keyed => (inner keyed).1) fun _ v _ first => ?_
      refine L.andThen (thawEntries rest fun keyed => (inner keyed).2) fun _ vs le others => ?_
      refine L.give ⟨List.forall_mem_cons.mpr ⟨L.later le first, others.1⟩, ?_⟩
      exact congrArg (key :: ·) others.2

end

end Discipline

namespace Exec

variable {W S : Type} (pass : Value → Exec W Value) (exec : S → Exec W Completion) (f : Function S)
  (args : List Value) (position : Position)

/-- What a call of a program function does between opening and closing its frame. -/
def insideCall : Exec W Value := do
  bindParams pass position f.params args
  let outer ← loopDepth
  setLoopDepth 0
  let value ← runBody exec f.body
  setLoopDepth outer
  return value

theorem enter_eq : enter pass exec f args position = (do
    openCall
    let value ← insideCall pass exec f args position
    closeCall
    return value) := by
  simp only [enter, insideCall, bind_assoc, pure_bind]

variable {pass exec f args position}

/-- A call that gives a value has given it inside a frame of its own, which is closed again. -/
theorem enter_ok {m m' : Machine W} {v : Value}
    (ended : enter pass exec f args position m = .ok v m') :
    ∃ after, insideCall pass exec f args position { m with scopes := m.scopes.openCall } =
        .ok v after ∧ m' = { after with scopes := after.scopes.closeCall } := by
  rw [enter_eq] at ended
  change (insideCall pass exec f args position >>= fun value => do
    closeCall
    return value) { m with scopes := m.scopes.openCall } = _ at ended
  obtain ⟨value, after, ran, closed⟩ := bind_eq_ok.mp ended
  cases closed
  exact ⟨after, ran, rfl⟩

end Exec

theorem StoreDiscipline.rewriteThen {W α : Type} (L : StoreDiscipline W) {t : L.Stage}
    {Q : L.Stage → α → Prop} {g : Heap → Except Fault Heap} {next : Exec W α}
    (position : Position)
    (written : ∀ h h', L.sound t h → g h = .ok h' → h.Written (L.good t) h')
    (distinct : ∀ h h', h.Distinct → g h = .ok h' → h'.Distinct)
    (h : ∀ t, L.holds t next Q) :
    L.holds t (do
      let h ← Exec.heap
      let h' ← Exec.orRaise position (g h)
      Exec.setHeap h'
      next) Q := by
  have both := L.andThen (L.rewrite position written distinct) fun t _ _ _ => h t
  simpa only [Exec.rewrite, bind_assoc] using both

namespace StatementDiscipline

variable {W α : Type} (L : StatementDiscipline W) {t : L.Stage}

theorem changeLoopDepth (change : Nat → Nat) :
    L.holds t (modify fun m => { m with loopDepth := change m.loopDepth }) L.any :=
  L.andThen L.loopDepth fun _ depth _ _ => L.setLoopDepth (change depth)

theorem inBlock {body : Exec W Completion} (h : ∀ t', t ≤ t' → L.holds t' body L.carries) :
    L.holds t (Exec.inBlock body) L.carries :=
  L.block (fun _ => L.openBlock) (fun _ => L.closeBlock) h

theorem inLoop {loop : Exec W Completion} (h : ∀ t', t ≤ t' → L.holds t' loop L.carries) :
    L.holds t (Exec.inLoop loop) L.carries := by
  refine L.andThen (L.changeLoopDepth (· + 1)) fun t _ le _ => ?_
  refine L.andThen (h t le) fun _ c _ carries => ?_
  exact L.andThen (L.changeLoopDepth (· - 1)) fun _ _ le _ => L.give (L.carries_later le carries)

theorem loopTimes {body : Nat → Exec W Completion} (h : ∀ t n, L.holds t (body n) L.carries)
    (first count : Nat) : L.holds t (Exec.loopTimes body first count) L.carries := by
  induction count generalizing t first with
  | zero => exact L.give trivial
  | succ count ih =>
      exact L.andThen (h t first) fun _ c _ carries => L.afterRound (ih (first + 1)) c carries

theorem loopOver {β : Type} {body : β → Exec W Completion} {items : List β}
    (h : ∀ a ∈ items, ∀ t', t ≤ t' → L.holds t' (body a) L.carries) :
    L.holds t (Exec.loopOver body items) L.carries := by
  induction items generalizing t with
  | nil => exact L.give trivial
  | cons item rest ih =>
      refine L.andThen (h item List.mem_cons_self t le_rfl) fun t' c le carries => ?_
      refine L.afterRound (ih fun a member t'' le' => ?_) c carries
      exact h a (List.mem_cons_of_mem _ member) t'' (le.trans le')

section Functions

variable {S : Type}

theorem bindParams {pass : Value → Exec W Value} (position : Position) (params : List String)
    (args : List Value)
    (passes : ∀ a ∈ args, ∀ t', t ≤ t' → L.holds t' (pass a) L.good) :
    L.holds t (Exec.bindParams pass position params args) L.any := by
  induction params generalizing t args with
  | nil => exact L.give trivial
  | cons param params ih =>
      cases args with
      | nil => exact L.give trivial
      | cons arg args =>
          refine L.andThen (passes arg List.mem_cons_self t le_rfl) fun t₁ value le₁ good => ?_
          refine L.andThen (L.declare param false position good) fun t₂ _ le₂ _ => ?_
          refine ih args fun a member t₃ le₃ => ?_
          exact passes a (List.mem_cons_of_mem _ member) t₃ (le₁.trans (le₂.trans le₃))

theorem runBody {exec : S → Exec W Completion} (h : ∀ t s, L.holds t (exec s) L.carries)
    (body : List S) : L.holds t (Exec.runBody exec body) L.good := by
  induction body generalizing t with
  | nil => exact L.give (L.plain rfl)
  | cons statement rest ih =>
      refine L.andThen (h t statement) fun _ c _ carries => ?_
      cases c with
      | returned value => exact L.give carries
      | normal | broke | continued => exact ih

theorem runAll {exec : S → Exec W Completion} (h : ∀ t s, L.holds t (exec s) L.carries)
    (statements : List S) : L.holds t (Exec.runAll exec statements) L.any := by
  induction statements generalizing t with
  | nil => exact L.give trivial
  | cons statement rest ih => exact L.andThen (h t statement) fun _ _ _ _ => ih

theorem insideCall {pass : Value → Exec W Value} {exec : S → Exec W Completion}
    (h : ∀ t s, L.holds t (exec s) L.carries) (f : Function S) (args : List Value)
    (position : Position) (passes : ∀ a ∈ args, ∀ t', t ≤ t' → L.holds t' (pass a) L.good) :
    L.holds t (Exec.insideCall pass exec f args position) L.good := by
  refine L.andThen (L.bindParams position f.params args passes) fun _ _ _ _ => ?_
  refine L.andThen L.loopDepth fun _ outer _ _ => ?_
  refine L.andThen (L.setLoopDepth 0) fun _ _ _ _ => ?_
  refine L.andThen (L.runBody h f.body) fun _ value _ good => ?_
  exact L.andThen (L.setLoopDepth outer) fun _ _ le _ => L.give (L.later le good)

end Functions

end StatementDiscipline

namespace CallDiscipline

variable {W S : Type} (L : CallDiscipline W) {t : L.Stage}

theorem enter {pass : Value → Exec W Value} {exec : S → Exec W Completion}
    (passes : ∀ t v, L.good t v → L.holds t (pass v) L.good)
    (h : ∀ t s, L.holds t (exec s) L.carries) (f : Function S) (args : List Value)
    (position : Position) (good : ∀ a ∈ args, L.good t a) :
    L.holds t (Exec.enter pass exec f args position) L.good := by
  rw [Exec.enter_eq]
  refine L.andThen L.openCall fun t₁ _ le₁ _ => ?_
  have inside := L.insideCall h f args position fun a member t₂ le₂ =>
    passes t₂ a (L.later (le₁.trans le₂) (good a member))
  refine L.andThen inside fun _ value _ given => ?_
  exact L.andThen L.closeCall fun _ _ le _ => L.give (L.later le given)

/-- A language whose statements are held to the discipline under every caller that is, has calls
that are, however deep they may nest. -/
theorem callFunction {pass : Value → Exec W Value} {exec : Caller W → S → Exec W Completion}
    (passes : ∀ t v, L.good t v → L.holds t (pass v) L.good)
    (h : ∀ call, L.Calls call → ∀ t s, L.holds t (exec call s) L.carries)
    (functions : List (Function S)) (room : Nat) :
    L.Calls (Exec.callFunction functions pass exec room) := by
  have hosts : L.Calls Exec.callHost := fun _ name args position _ => L.callHost name args position
  induction room with
  | zero =>
      exact L.resolve hosts fun _ f _ position _ => L.raise (.infiniteRecursion f.name) position
  | succ room ih =>
      exact L.resolve hosts fun _ f args position => L.enter passes (h _ ih) f args position

end CallDiscipline
end Walkthrough
