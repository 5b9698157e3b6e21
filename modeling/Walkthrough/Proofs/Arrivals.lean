import Walkthrough.Proofs.Invariants
import Walkthrough.Proofs.Rounds

/-! How evaluations come to an end. An ending is derived from the small operations of an evaluation,
one behind the other, and from rounds of its loops; nothing in the derivation bounds how many rounds
a loop may go, and every state on the way is in it. That evaluations have such derivations is a
discipline for every kind of states that the small operations do not leave. -/

namespace Walkthrough

namespace Exec

variable {W α β : Type}

def offered : Exec W (List (HostFunction W)) :=
  return (← get).functions

def whileLoop (position : Position) (test : Exec W Bool) (body : Exec W Completion)
    (update : Exec W Unit) : Exec W Completion :=
  iterationsLeft >>= loopWhile position test body update

inductive Small : {α : Type} → Exec W α → Prop
  | give {α : Type} (a : α) : Small (pure a)
  | raise {α : Type} (fault : Fault) (position : Position) :
      Small (raise fault position : Exec W α)
  | offered : Small offered
  | heap : Small heap
  | consult {α : Type} (position : Position) (g : Features → Heap → Except Fault α) :
      Small (consult position g)
  | readName (name : String) (position : Position) : Small (readName name position)
  | newList (items : List Value) : Small (newList items)
  | newDict (entries : List (String × Value)) : Small (newDict entries)
  | rewrite (position : Position) (g : Heap → Except Fault Heap) : Small (rewrite position g)
  | declare (name : String) (value : Value) (constant : Bool) (position : Position) :
      Small (declare name value constant position)
  | assign (name : String) (value : Value) (position : Position) :
      Small (assign name value position)
  | openBlock : Small openBlock
  | closeBlock : Small closeBlock
  | openCall : Small openCall
  | closeCall : Small closeCall
  | inFunction : Small inFunction
  | loopDepth : Small loopDepth
  | setLoopDepth (depth : Nat) : Small (setLoopDepth depth)
  | log (output : String) : Small (log output)
  | record (position : Position) (kind : String) (value : Option Snapshot) (step : Step) :
      Small (record position kind value step)
  | callHost (name : String) (args : List Value) (position : Position) :
      Small (callHost name args position)

/-- From the state the evaluation comes to the ending, with so many loop bodies entered on the way,
and `P` is true of every state that it goes through. -/
inductive Ends (P : Machine W → Prop) : {α : Type} → Exec W α → Machine W → Nat →
    EStateM.Result Failure (Machine W) α → Prop
  | small {α : Type} {x : Exec W α} {m : Machine W} : Small x → P m → P (final (x m)) →
      Ends P x m 0 (x m)
  | counted {position : Position} {m m' : Machine W} : countIteration position m = .ok () m' →
      P m → P m' → Ends P (countIteration position) m 1 (.ok () m')
  | refused {position : Position} {failure : Failure} {m m' : Machine W} :
      countIteration position m = .error failure m' → P m → P m' →
      Ends P (countIteration position) m 0 (.error failure m')
  | andThen {α β : Type} {x : Exec W α} {k : α → Exec W β} {m m' : Machine W} {n n' : Nat} {a : α}
      {ending : EStateM.Result Failure (Machine W) β} : Ends P x m n (.ok a m') →
      Ends P (k a) m' n' ending → Ends P (x >>= k) m (n + n') ending
  | stopped {α β : Type} {x : Exec W α} {k : α → Exec W β} {m m' : Machine W} {n : Nat}
      {failure : Failure} : Ends P x m n (.error failure m') →
      Ends P (x >>= k) m n (.error failure m')
  | again {position : Position} {test : Exec W Bool} {body : Exec W Completion}
      {update : Exec W Unit} {m : Machine W} {n : Nat}
      {ending : EStateM.Result Failure (Machine W) Completion} :
      Ends P (test >>= afterTest position body
        (update >>= fun _ => whileLoop position test body update)) m n ending →
      Ends P (whileLoop position test body update) m n ending

theorem Ends.mono {P P' : Machine W → Prop} {x : Exec W α} {m : Machine W} {n : Nat}
    {ending : EStateM.Result Failure (Machine W) α} (weaker : ∀ m, P m → P' m)
    (ends : Ends P x m n ending) : Ends P' x m n ending := by
  induction ends with
  | small small before after => exact .small small (weaker _ before) (weaker _ after)
  | counted counted before after => exact .counted counted (weaker _ before) (weaker _ after)
  | refused refused before after => exact .refused refused (weaker _ before) (weaker _ after)
  | andThen _ _ first second => exact .andThen first second
  | stopped _ first => exact .stopped first
  | again _ round => exact .again round

theorem Ends.bounds {P : Machine W → Prop} {x : Exec W α} {m : Machine W} {n : Nat}
    {ending : EStateM.Result Failure (Machine W) α} (ends : Ends P x m n ending) :
    P m ∧ P (final ending) := by
  induction ends with
  | small _ before after => exact ⟨before, after⟩
  | counted _ before after => exact ⟨before, after⟩
  | refused _ before after => exact ⟨before, after⟩
  | andThen _ _ first second => exact ⟨first.1, second.2⟩
  | stopped _ first => exact first
  | again _ round => exact round

/-- From the state `x` comes to the ending that `y` has there, through states that `P` is true of,
and `Q` is true of a value that it gives and of the state then. The loop bodies entered on the way
are those that the last state has more than the first. -/
def EndsAs (P : Machine W → Prop) (x y : Exec W α) (m : Machine W) (Q : α → Machine W → Prop) :
    Prop :=
  ∃ n, Ends P x m n (y m) ∧ (final (y m)).features = m.features ∧
    (final (y m)).bodies = m.bodies + n ∧
    match y m with
    | .ok a m' => Q a m'
    | .error _ _ => True

/-- What is known of the state in which a value was given. -/
structure Given (P : Machine W → Prop) (y : Exec W α) (m : Machine W) (a : α) (m' : Machine W) :
    Prop where
  ran : y m = .ok a m'
  passed : P m'
  features : m'.features = m.features
  onward : m.bodies ≤ m'.bodies

namespace EndsAs

variable {P P' : Machine W → Prop} {x y : Exec W α} {m : Machine W} {Q Q' : α → Machine W → Prop}
  {R : β → Machine W → Prop}

theorem andThen {k k' : α → Exec W β} (hx : EndsAs P x y m Q)
    (hk : ∀ a m', Given P y m a m' → Q a m' → EndsAs P (k a) (k' a) m' R) :
    EndsAs P (x >>= k) (y >>= k') m R := by
  obtain ⟨n, ends, features, counted, after⟩ := hx
  unfold EndsAs
  rw [bind_apply]
  cases ran : y m with
  | error failure m' =>
      rw [ran] at ends features counted
      exact ⟨n, .stopped ends, features, counted, trivial⟩
  | ok a m' =>
      rw [ran] at ends features counted after
      have onward : m.bodies ≤ m'.bodies := Nat.le.intro counted.symm
      obtain ⟨n', ends', features', counted', after'⟩ :=
        hk a m' ⟨ran, ends.bounds.2, features, onward⟩ after
      refine ⟨n + n', ends.andThen ends', features'.trans features, ?_, after'⟩
      rw [← Nat.add_assoc, ← counted]
      exact counted'

theorem mono (h : EndsAs P x y m Q) (weaker : ∀ m, P m → P' m) (given : ∀ a m, Q a m → Q' a m) :
    EndsAs P' x y m Q' := by
  obtain ⟨n, ends, features, counted, after⟩ := h
  refine ⟨n, ends.mono weaker, features, counted, ?_⟩
  cases ended : y m with
  | error failure m' => trivial
  | ok a m' =>
      rw [ended] at after
      exact given a m' after

theorem before (h : EndsAs P x y m Q) : P m := by
  obtain ⟨n, ends, -⟩ := h
  exact ends.bounds.1

theorem small (small : Small x) (before : P m) (after : P (final (x m)))
    (features : (final (x m)).features = m.features)
    (iterations : (final (x m)).iterations = m.iterations)
    (given : ∀ a m', x m = .ok a m' → Q a m') : EndsAs P x x m Q := by
  refine ⟨0, .small small before after, features, ?_, ?_⟩
  · rw [Machine.bodies, features, iterations]
    rfl
  · cases ended : x m with
    | error failure m' => trivial
    | ok a m' => exact given a m' ended

theorem give {a : α} (before : P m) (given : Q a m) : EndsAs P (pure a) (pure a) m Q := by
  refine .small (.give a) before before rfl rfl fun _ _ ended => ?_
  cases ended
  exact given

theorem again {position : Position} {test : Exec W Bool} {body : Exec W Completion}
    {update : Exec W Unit} {y : Exec W Completion} {Q : Completion → Machine W → Prop}
    (h : EndsAs P (test >>= afterTest position body
      (update >>= fun _ => whileLoop position test body update)) y m Q) :
    EndsAs P (whileLoop position test body update) y m Q := by
  obtain ⟨n, ends, after⟩ := h
  exact ⟨n, ends.again, after⟩

theorem enter {S : Type} {pass : Value → Exec W Value} {exec : S → Exec W Completion}
    {f : Function S} {args : List Value} {position : Position} {Q : Value → Machine W → Prop}
    (before : P m)
    (inside : EndsAs P (insideCall pass exec f args position)
      (insideCall pass exec f args position) { m with scopes := m.scopes.openCall } fun v m' =>
        P { m' with scopes := m'.scopes.closeCall } ∧
          Q v { m' with scopes := m'.scopes.closeCall }) :
    EndsAs P (Exec.enter pass exec f args position) (Exec.enter pass exec f args position) m Q := by
  rw [enter_eq]
  have opened : EndsAs P openCall openCall m fun _ m' =>
      m' = { m with scopes := m.scopes.openCall } := by
    refine .small .openCall before inside.before rfl rfl fun _ _ ended => ?_
    cases ended
    rfl
  refine opened.andThen fun _ m₁ _ same => ?_
  rw [same]
  refine inside.andThen fun v m₂ given holds => ?_
  have closed : EndsAs P closeCall closeCall m₂ fun _ m' =>
      m' = { m₂ with scopes := m₂.scopes.closeCall } := by
    refine .small .closeCall given.passed holds.1 rfl rfl fun _ _ ended => ?_
    cases ended
    rfl
  refine closed.andThen fun _ m₃ _ same => ?_
  rw [same]
  exact .give holds.1 holds.2

end EndsAs

end Exec

/-- States that no small operation leaves, whether it gives a value or fails: from one in which
`here` is true it leads to such a state again, and these are among those that may be passed. -/
structure Enclosure (W : Type) where
  here : Machine W → Prop
  passed : Machine W → Prop
  passes : ∀ {m}, here m → passed m
  /-- Of a state only the cells, the names, the frames and the offered functions count. -/
  quiet : ∀ {m m'}, here m → m'.heap = m.heap → m'.scopes = m.scopes → m'.frames = m.frames →
    m'.functions = m.functions → here m'
  /-- Whether keys are distinct in such a state, whatever the host gives. -/
  keyed : Prop := False
  distinct : ∀ {m}, keyed → here m → m.heap.Distinct ∧ ∀ f ∈ m.functions, f.GivesDistinct := by
    exact False.elim
  cells : ∀ {m heap}, here m → (keyed → heap.Distinct) → here { m with heap }
  names : ∀ {m scopes}, here m → m.scopes.Renamed (fun _ => True) scopes → here { m with scopes }
  frames : ∀ {m line ending}, here m → (keyed → ending.Distinct) → here (m.addFrame line ending)

namespace Enclosure

open Exec

variable {W α β : Type} (V : Enclosure W)

/-- From every such state the evaluation comes to its ending, through states that may be passed;
with a value, which `Q` is then true of, it ends in such a state again. -/
def Arrives (x : Exec W α) (Q : α → Prop) : Prop :=
  ∀ m, V.here m → EndsAs V.passed x x m fun a m' => V.here m' ∧ Q a

namespace Arrives

variable {V} {x : Exec W α} {Q : α → Prop} {R : β → Prop}

theorem give {a : α} (given : Q a) : V.Arrives (pure a) Q := by
  intro m here
  exact .give (V.passes here) ⟨here, given⟩

theorem andThen {k : α → Exec W β} (hx : V.Arrives x Q) (hk : ∀ a, Q a → V.Arrives (k a) R) :
    V.Arrives (x >>= k) R := by
  intro m here
  exact (hx m here).andThen fun a m' _ given => hk a given.2 m' given.1

theorem weaken {Q' : α → Prop} (h : V.Arrives x Q) (weaker : ∀ a, Q a → Q' a) :
    V.Arrives x Q' := by
  intro m here
  exact (h m here).mono (fun _ => id) fun a _ given => ⟨given.1, weaker a given.2⟩

section Small

variable (small : Small x)
include small

theorem ofSmall (stays : ∀ m, V.here m → V.here (final (x m)))
    (features : ∀ m, (final (x m)).features = m.features)
    (iterations : ∀ m, (final (x m)).iterations = m.iterations)
    (given : ∀ m a m', V.here m → x m = .ok a m' → Q a) : V.Arrives x Q := by
  intro m here
  have here' := stays m here
  refine .small small (V.passes here) (V.passes here') (features m) (iterations m) ?_
  intro a m' ended
  rw [ended] at here'
  exact ⟨here', given m a m' here ended⟩

theorem ofStill (still : ∀ m, final (x m) = m)
    (given : ∀ m a m', V.here m → x m = .ok a m' → Q a) : V.Arrives x Q := by
  refine ofSmall small (fun m here => ?_) (fun m => ?_) (fun m => ?_) given
  · rw [still m]
    exact here
  · rw [still m]
  · rw [still m]

end Small

theorem raise (fault : Fault) (position : Position) :
    V.Arrives (raise fault position : Exec W α) Q := by
  refine ofStill (.raise fault position) (fun _ => rfl) fun _ _ _ _ ended => ?_
  cases ended

theorem readHeap : V.Arrives heap fun h => V.keyed → h.Distinct := by
  refine ofStill .heap (fun _ => rfl) fun m h m' here ended keyed => ?_
  cases ended
  exact (V.distinct keyed here).1

theorem consult {g : Features → Heap → Except Fault α} (position : Position)
    (given : ∀ f h a, (V.keyed → h.Distinct) → g f h = .ok a → Q a) :
    V.Arrives (consult position g) Q := by
  refine ofStill (.consult position g) (final_consult position g) fun m a m' here ended => ?_
  exact given _ _ a (fun keyed => (V.distinct keyed here).1) (of_consult_ok ended)

theorem readName (name : String) (position : Position) :
    V.Arrives (readName name position) fun _ => True :=
  ofStill (.readName name position) (final_readName name position) fun _ _ _ _ _ => trivial

theorem newList (items : List Value) : V.Arrives (newList items) fun _ => True := by
  refine ofSmall (.newList items) (fun m here => ?_) (fun _ => rfl) (fun _ => rfl)
    fun _ _ _ _ _ => trivial
  exact V.cells here fun keyed => (V.distinct keyed here).1

theorem newDict {entries : List (String × Value)} (keys : V.keyed → KeysDistinct entries) :
    V.Arrives (newDict entries) fun _ => True := by
  refine ofSmall (.newDict entries) (fun m here => ?_) (fun _ => rfl) (fun _ => rfl)
    fun _ _ _ _ _ => trivial
  exact V.cells here fun keyed => (V.distinct keyed here).1.newDict (keys keyed)

theorem rewrite {g : Heap → Except Fault Heap} (position : Position)
    (distinct : ∀ h h', h.Distinct → g h = .ok h' → h'.Distinct) :
    V.Arrives (rewrite position g) fun _ => True := by
  have quiet := quiet_rewrite (W := W) position g
  refine ofSmall (.rewrite position g) (fun m here => ?_) (fun m => (quiet m).features)
    (fun m => (quiet m).iterations) fun _ _ _ _ _ => trivial
  rw [rewrite_apply]
  cases result : g m.heap with
  | error fault => exact here
  | ok heap => exact V.cells here fun keyed => distinct _ _ (V.distinct keyed here).1 result

theorem rename {x : Exec W Unit} (small : Small x) {g : Scopes → Except Fault Scopes}
    (position : Position)
    (h : ∀ m, x m = match g m.scopes with
      | .ok scopes => .ok () { m with scopes }
      | .error fault => .error ⟨fault, position⟩ m)
    (renamed : ∀ s s', g s = .ok s' → s.Renamed (fun _ => True) s') :
    V.Arrives x fun _ => True := by
  refine ofSmall small (fun m here => ?_) (fun m => ?_) (fun m => ?_) fun _ _ _ _ _ => trivial
  · rw [h m]
    cases result : g m.scopes with
    | error fault => exact here
    | ok scopes => exact V.names here (renamed _ _ result)
  · rw [h m]
    cases g m.scopes <;> rfl
  · rw [h m]
    cases g m.scopes <;> rfl

theorem block {x : Exec W Unit} {change : Scopes → Scopes} (small : Small x)
    (h : ∀ m, x m = .ok () { m with scopes := change m.scopes })
    (renamed : ∀ s : Scopes, s.Renamed (fun _ => True) (change s)) : V.Arrives x fun _ => True := by
  refine rename (g := fun s => .ok (change s)) small {} h ?_
  intro s s' same
  cases same
  exact renamed s

theorem openBlock : V.Arrives openBlock fun _ => True :=
  block .openBlock (fun _ => rfl) fun _ => .openBlock

theorem closeBlock : V.Arrives closeBlock fun _ => True :=
  block .closeBlock (fun _ => rfl) fun _ => .closeBlock

theorem record (position : Position) {kind : String} {value : Option Snapshot} {step : Step}
    (shown : V.keyed → (Ending.success kind value step).Distinct) :
    V.Arrives (record position kind value step) fun _ => True := by
  refine ofSmall (.record position kind value step) (fun m here => ?_) (fun m => ?_) (fun m => ?_)
    fun _ _ _ _ _ => trivial
  · rw [final_record]
    exact V.frames here shown
  · rw [final_record]
    rfl
  · rw [final_record]
    rfl

theorem countIteration (position : Position) :
    V.Arrives (countIteration position) fun _ => True := by
  intro m here
  have here' : V.here m.countBody := V.quiet here rfl rfl rfl rfl
  have counted := countIteration_apply position m
  unfold EndsAs
  by_cases many : m.features.maxIterations.toNat < m.iterations.toNat + 1
  · rw [if_pos many] at counted
    rw [counted]
    exact ⟨0, .refused counted (V.passes here) (V.passes here'), rfl, Machine.bodies_refused many,
      trivial⟩
  · rw [if_neg many] at counted
    rw [counted]
    exact ⟨1, .counted counted (V.passes here) (V.passes here'), rfl, Machine.bodies_counted many,
      here', trivial⟩

section Loops

variable (position : Position) {test : Exec W Bool} {body : Exec W Completion}
  {update : Exec W Unit} {m : Machine W} (hb : V.Arrives body fun _ => True)
include hb

theorem afterTest {next next' : Exec W Completion} {Q : Completion → Machine W → Prop}
    (here : V.here m)
    (hnext : ∀ m', V.here m' → m'.features = m.features → m.bodies < m'.bodies →
      EndsAs V.passed next next' m' Q)
    (done : ∀ c m', V.here m' → Q c m') (holds : Bool) :
    EndsAs V.passed (afterTest position body next holds) (afterTest position body next' holds) m
      Q := by
  have finish (c : Completion) {m' : Machine W} (here' : V.here m') :
      EndsAs V.passed (pure c) (pure c) m' Q := .give (V.passes here') (done c m' here')
  cases holds with
  | false => exact finish .normal here
  | true =>
      refine (countIteration position m here).andThen fun _ m₁ given₁ here₁ => ?_
      have more : m.bodies < m₁.bodies := by
        have counted := given₁.ran
        rw [countIteration_apply] at counted
        split at counted
        · cases counted
        · next room =>
            cases counted
            rw [Machine.bodies_counted room]
            exact Nat.lt_succ_self _
      refine (hb m₁ here₁.1).andThen fun c m₂ given₂ here₂ => ?_
      have onward := given₂.onward
      have goOn := hnext m₂ here₂.1 (given₂.features.trans given₁.features) (by omega)
      cases c with
      | normal => exact goOn
      | continued => exact goOn
      | broke => exact finish .normal here₂.1
      | returned v => exact finish (.returned v) here₂.1

variable (ht : V.Arrives test fun _ => True) (hu : V.Arrives update fun _ => True)
include ht hu

/-- A loop that goes on as long as its test holds comes to the ending of the bounded loop, as soon
as the bound is the number of rounds that may still begin. -/
theorem loopWhile (bound : Nat) (here : V.here m)
    (enough : m.features.maxIterations.toNat ≤ m.bodies + bound) :
    EndsAs V.passed (whileLoop position test body update)
      (loopWhile position test body update bound) m fun _ m' => V.here m' := by
  -- the count goes up with every round, so the bound that is left stays enough
  induction bound generalizing m with
  | zero =>
      refine EndsAs.again ?_
      rw [loopWhile_zero]
      refine (ht m here).andThen fun holds m₁ given₁ here₁ => ?_
      cases holds with
      | false => exact .give (V.passes here₁.1) here₁.1
      | true =>
          refine (countIteration position m₁ here₁.1).andThen fun _ m₂ given₂ _ => ?_
          have many : m₁.features.maxIterations.toNat < m₁.iterations.toNat + 1 := by
            have onward := given₁.onward
            have counted : m₁.bodies ≤ m₁.iterations.toNat := Nat.min_le_left _ _
            rw [given₁.features]
            omega
          have refused := given₂.ran
          rw [countIteration_apply, if_pos many] at refused
          cases refused
  | succ bound ih =>
      refine EndsAs.again ?_
      rw [loopWhile_succ]
      refine (ht m here).andThen fun holds m₁ given₁ here₁ => ?_
      refine afterTest position hb here₁.1 (fun m₂ here₂ same₂ more => ?_)
        (fun _ _ here₂ => here₂) holds
      refine (hu m₂ here₂).andThen fun _ m₃ given₃ here₃ => ih here₃.1 ?_
      have before := given₁.onward
      have behind := given₃.onward
      rw [given₃.features, same₂, given₁.features]
      omega

theorem whileLoop : V.Arrives (whileLoop position test body update) fun _ => True := by
  intro m here
  let left := m.features.maxIterations.toNat - m.iterations.toNat
  have enough : m.features.maxIterations.toNat ≤ m.bodies + left := by
    unfold Machine.bodies
    omega
  have loop := loopWhile position hb ht hu left here enough
  exact loop.mono (fun _ => id) fun _ _ here' => ⟨here', trivial⟩

end Loops

end Arrives

def expressions : Discipline W where
  Stage := Unit
  holds _ x Q := V.Arrives x (Q ())
  good _ _ := True
  sound _ h := V.keyed → h.Distinct
  keyed := V.keyed
  distinct keyed distinct := distinct keyed
  later _ := id
  give := .give
  andThen hx hk := .andThen hx fun a => hk () a le_rfl
  raise := .raise
  readHeap := .readHeap
  consult position _ given := .consult position given
  readName := .readName
  newList {_ xs} _ := .newList xs
  newDict _ keys := .newDict keys
  plain _ := trivial
  items _ _ _ _ := trivial
  entries _ _ _ _ := trivial

def statements : StatementDiscipline W where
  toDiscipline := V.expressions
  declare {_ v} name constant position _ :=
    Arrives.rename (.declare name v constant position) position
      (declare_apply name v constant position) fun _ _ => .declare trivial
  assign {_ v} name position _ :=
    Arrives.rename (.assign name v position) position (assign_apply name v position)
      fun _ _ => .assign trivial
  rewrite position _ distinct := Arrives.rewrite position distinct
  openBlock := Arrives.openBlock
  closeBlock := Arrives.closeBlock
  inFunction := Arrives.ofStill .inFunction (fun _ => rfl) fun _ _ _ _ _ => trivial
  loopDepth := Arrives.ofStill .loopDepth (fun _ => rfl) fun _ _ _ _ _ => trivial
  setLoopDepth depth :=
    Arrives.ofSmall (.setLoopDepth depth) (fun _ here => V.quiet here rfl rfl rfl rfl)
      (fun _ => rfl) (fun _ => rfl) fun _ _ _ _ _ => trivial
  log output :=
    Arrives.ofSmall (.log output) (fun _ here => V.quiet here rfl rfl rfl rfl) (fun _ => rfl)
      (fun _ => rfl) fun _ _ _ _ _ => trivial
  record position _ _ _ shown := Arrives.record position shown
  round position hb h :=
    V.expressions.countedRound (fun _ => Arrives.openBlock) (fun _ => Arrives.closeBlock)
      (fun _ => Arrives.countIteration) position
      (fun t le => (hb t le).holds fun _ position _ _ _ shown => Arrives.record position shown) h
  loopWhile position ht hb hu := by
    have test := (ht ()).holds fun _ position _ _ _ shown => Arrives.record position shown
    have body := Arrives.weaken (hb ()) fun _ _ => trivial
    refine (Arrives.whileLoop position body test (hu ())).weaken fun c _ => ?_
    cases c <;> trivial

theorem statements_readsFunctions : V.statements.ReadsFunctions := by
  intro α t start Q h only m here
  have reads : (get >>= start) = offered >>= fun functions => start { m with functions } := by
    funext m'
    exact congrFun (only m' { m with functions := m'.functions } rfl) m'
  have offers : V.Arrives offered fun _ => True :=
    .ofStill .offered (fun _ => rfl) fun _ _ _ _ _ => trivial
  rw [reads]
  exact offers.andThen (fun functions _ => h { m with functions }) m here

theorem here_thaw {m : Machine W} (here : V.here m) {s : Snapshot}
    (distinct : V.keyed → s.Distinct) : V.here { m with heap := (m.heap.thaw s).2 } := by
  obtain ⟨-, -, -, -, after⟩ := V.expressions.thaw (t := ()) s distinct m here
  exact after.1

theorem arrives_callHost (name : String) (args : List Value) (position : Position) :
    V.Arrives (callHost name args position) fun _ => True := by
  have quiet := quiet_callHost (W := W) name args position
  refine .ofSmall (.callHost name args position) (fun m here => ?_) (fun m => (quiet m).features)
    (fun m => (quiet m).iterations) fun _ _ _ _ _ => trivial
  obtain same | ⟨f, offered, failed | ⟨json, ran, given⟩⟩ := final_callHost name args position m
  · rw [same]
    exact here
  · rw [failed]
    exact V.quiet here rfl rfl rfl rfl
  · rw [given]
    have distinct (keyed : V.keyed) :=
      Snapshot.distinct_ofJson ((V.distinct keyed here).2 f offered _ _ json ran)
    exact V.quiet (V.here_thaw here distinct) rfl rfl rfl rfl

end Enclosure
end Walkthrough
