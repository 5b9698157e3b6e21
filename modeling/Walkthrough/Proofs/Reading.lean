import Mathlib.Data.List.Basic
import Walkthrough.Stream

/-! What readers of tokens read. A reader is held against a grammar, which says for each thing how
it may be written: the reader is sound if it has read the tokens of what it gives, and it accepts
the grammar if it gives whatever is written there, provided that the tokens behind it do not go on
with it. What it gives is compared by a view, since the places of the tokens are not part of a
grammar. -/

namespace Walkthrough

namespace Stream

variable {T : Type} {s s' s'' : Stream T} {t : T} {ts us : List T}

def items (s : Stream T) : List T :=
  s.ahead.map fun token => token.item

/-- Reading the tokens leads from one stream to the other. -/
def Past : Stream T → List T → Stream T → Prop
  | s, [], s' => s = s'
  | s, t :: ts, s' => ∃ position rest, s.ahead = ⟨t, position⟩ :: rest ∧
      Past { s with last := some t, ahead := rest } ts s'

theorem past_append : s.Past (ts ++ us) s'' ↔ ∃ s', s.Past ts s' ∧ s'.Past us s'' := by
  induction ts generalizing s with
  | nil =>
      constructor
      · intro past
        exact ⟨s, rfl, past⟩
      · rintro ⟨_, rfl, past⟩
        exact past
  | cons t ts ih =>
      constructor
      · rintro ⟨position, rest, ahead, past⟩
        obtain ⟨s', first, second⟩ := ih.mp past
        exact ⟨s', ⟨position, rest, ahead, first⟩, second⟩
      · rintro ⟨s', ⟨position, rest, ahead, first⟩, second⟩
        exact ⟨position, rest, ahead, ih.mpr ⟨s', first, second⟩⟩

theorem past_cons : s.Past (t :: ts) s'' ↔ ∃ s', s.Past [t] s' ∧ s'.Past ts s'' :=
  @past_append T s s'' [t] ts

theorem Past.append (h : s.Past ts s') (h' : s'.Past us s'') : s.Past (ts ++ us) s'' :=
  past_append.mpr ⟨s', h, h'⟩

theorem Past.items_eq (h : s.Past ts s') : s.items = ts ++ s'.items := by
  induction ts generalizing s with
  | nil =>
      cases h
      rfl
  | cons t ts ih =>
      obtain ⟨position, rest, ahead, past⟩ := h
      have behind : rest.map (fun token => token.item) = ts ++ s'.items := ih past
      rw [Stream.items, ahead, List.map_cons, behind]
      rfl

theorem Past.head? (h : s.Past (t :: ts) s') : s.items.head? = some t := by
  rw [h.items_eq]
  rfl

theorem length_items (s : Stream T) : s.items.length = s.ahead.length :=
  List.length_map _

theorem Past.length_eq (h : s.Past ts s') :
    s.ahead.length = ts.length + s'.ahead.length := by
  rw [← length_items, ← length_items, h.items_eq, List.length_append]

theorem exists_past (begins : s.items = ts ++ us) : ∃ s', s.Past ts s' ∧ s'.items = us := by
  induction ts generalizing s with
  | nil => exact ⟨s, rfl, begins⟩
  | cons t ts ih =>
      obtain ⟨last, ahead, stop⟩ := s
      cases ahead with
      | nil => cases begins
      | cons token rest =>
          obtain ⟨rfl, behind⟩ := List.cons.inj begins
          obtain ⟨s', past, left⟩ := ih (s := ⟨some token.item, rest, stop⟩) behind
          exact ⟨s', ⟨token.position, rest, rfl, past⟩, left⟩

theorem past_of_head? (next : s.items.head? = some t) : ∃ s', s.Past [t] s' := by
  have begins : s.items = [t] ++ s.items.tail := (List.cons_head?_tail next).symm
  obtain ⟨s', past, -⟩ := exists_past begins
  exact ⟨s', past⟩

end Stream

namespace Parser

variable {T M α β : Type} {s s' : Stream T}

theorem bind_apply (x : Parser T M α) (k : α → Parser T M β) (s : Stream T) :
    (x >>= k) s =
      match x s with
      | .ok a s' => k a s'
      | .error mistake s' => .error mistake s' := by
  change EStateM.bind x k s = _
  unfold EStateM.bind
  cases x s <;> rfl

theorem bind_ok {x : Parser T M α} {k : α → Parser T M β} {a : α} (h : x s = .ok a s') :
    (x >>= k) s = k a s' := by
  rw [bind_apply, h]

theorem bind_error {x : Parser T M α} {k : α → Parser T M β} {mistake : Located M}
    (h : x s = .error mistake s') : (x >>= k) s = .error mistake s' := by
  rw [bind_apply, h]

theorem peek?_apply (s : Stream T) : peek? (M := M) s = .ok s.items.head? s := by
  change EStateM.Result.ok (s.ahead.head?.map fun token => token.item) s = _
  unfold Stream.items
  rw [List.head?_map]

theorem peekSecond?_apply (s : Stream T) :
    peekSecond? (M := M) s = .ok s.items.tail.head? s := by
  change EStateM.Result.ok (s.ahead.tail.head?.map fun token => token.item) s = _
  unfold Stream.items
  rw [← List.map_tail, List.head?_map]

theorem position_apply (s : Stream T) : ∃ place, position (M := M) s = .ok place s :=
  ⟨_, rfl⟩

theorem remaining_apply (s : Stream T) : remaining (M := M) s = .ok s.ahead.length s :=
  rfl

theorem fail_apply (mistake : M) (s : Stream T) :
    ∃ place, fail (α := α) mistake s = .error ⟨mistake, place⟩ s :=
  ⟨_, rfl⟩

theorem advance_apply {t : T} (past : s.Past [t] s') : advance (M := M) s = .ok () s' := by
  obtain ⟨place, rest, ahead, rfl⟩ := past
  obtain ⟨last, _, stop⟩ := s
  cases ahead
  rfl

section Tokens

variable [DecidableEq T] (t : T)

theorem isNext_apply (s : Stream T) :
    isNext (M := M) t s = .ok (decide (s.items.head? = some t)) s := by
  unfold isNext
  rw [bind_ok (peek?_apply s)]
  rfl

theorem accept_next (past : s.Past [t] s') : accept (M := M) t s = .ok true s' := by
  unfold accept
  rw [bind_ok (isNext_apply t s), past.head?, decide_eq_true rfl]
  exact bind_ok (advance_apply past)

theorem accept_other (other : s.items.head? ≠ some t) : accept (M := M) t s = .ok false s := by
  unfold accept
  rw [bind_ok (isNext_apply t s), decide_eq_false other]
  rfl

end Tokens

/-- Whatever the reader gives from the stream, it has read tokens of. -/
def Reads (s : Stream T) (r : Parser T M α) (G : α → List T → Prop) : Prop :=
  ∀ ⦃a s'⦄, r s = .ok a s' → ∃ ts, G a ts ∧ s.Past ts s'

namespace Reads

variable {x : Parser T M α} {k : α → Parser T M β} {G : α → List T → Prop} {H : β → List T → Prop}

theorem give {a : α} (g : G a []) : Reads (M := M) s (pure a) G := by
  intro b s' ended
  cases ended
  exact ⟨[], g, rfl⟩

theorem fail (mistake : M) : Reads s (Parser.fail (α := α) mistake) G := by
  intro a s' ended
  cases ended

theorem andThen (hx : Reads s x G)
    (hk : ∀ a ts s', G a ts → s.Past ts s' → Reads s' (k a) fun b us => H b (ts ++ us)) :
    Reads s (x >>= k) H := by
  intro b s'' ended
  rw [bind_apply] at ended
  split at ended
  · next a s' ran =>
      obtain ⟨ts, g, past⟩ := hx ran
      obtain ⟨us, h, past'⟩ := hk a ts s' g past ended
      exact ⟨ts ++ us, h, past.append past'⟩
  · cases ended

theorem position {k : Position → Parser T M β} (h : ∀ place, Reads s (k place) H) :
    Reads s (Parser.position >>= k) H := by
  obtain ⟨place, ran⟩ := position_apply (M := M) s
  intro b s' ended
  rw [bind_ok ran] at ended
  exact h place ended

theorem remaining {k : Nat → Parser T M β} (h : ∀ bound, Reads s (k bound) H) :
    Reads s (Parser.remaining >>= k) H := by
  intro b s' ended
  rw [bind_ok (remaining_apply s)] at ended
  exact h _ ended

theorem peek {k : Option T → Parser T M β} (h : Reads s (k s.items.head?) H) :
    Reads s (peek? >>= k) H := by
  intro b s' ended
  rw [bind_ok (peek?_apply s)] at ended
  exact h ended

theorem peekSecond {k : Option T → Parser T M β} (h : Reads s (k s.items.tail.head?) H) :
    Reads s (peekSecond? >>= k) H := by
  intro b s' ended
  rw [bind_ok (peekSecond?_apply s)] at ended
  exact h ended

theorem advance {k : Unit → Parser T M β} {t : T} (next : s.items.head? = some t)
    (h : ∀ s', s.Past [t] s' → Reads s' (k ()) fun b us => H b (t :: us)) :
    Reads s (Parser.advance >>= k) H := by
  obtain ⟨s', past⟩ := Stream.past_of_head? next
  intro b s'' ended
  rw [bind_ok (advance_apply past)] at ended
  obtain ⟨us, g, past'⟩ := h s' past ended
  exact ⟨t :: us, g, past.append past'⟩

theorem atEnd {k : Bool → Parser T M β} (ended : s.items = [] → Reads s (k true) H)
    (goesOn : s.items ≠ [] → Reads s (k false) H) : Reads s (Parser.atEnd >>= k) H := by
  obtain ⟨last, ahead, stop⟩ := s
  cases ahead with
  | nil => exact ended rfl
  | cons token rest => exact goesOn (List.cons_ne_nil _ _)

variable [DecidableEq T]

theorem isNext {k : Bool → Parser T M β} (t : T)
    (next : s.items.head? = some t → Reads s (k true) H)
    (other : s.items.head? ≠ some t → Reads s (k false) H) :
    Reads s (Parser.isNext t >>= k) H := by
  intro b s' ended
  rw [bind_ok (isNext_apply t s)] at ended
  by_cases isNext : s.items.head? = some t
  · rw [decide_eq_true isNext] at ended
    exact next isNext ended
  · rw [decide_eq_false isNext] at ended
    exact other isNext ended

theorem accept {k : Bool → Parser T M β} (t : T)
    (taken : ∀ s', s.Past [t] s' → Reads s' (k true) fun b us => H b (t :: us))
    (other : s.items.head? ≠ some t → Reads s (k false) H) :
    Reads s (Parser.accept t >>= k) H := by
  by_cases next : s.items.head? = some t
  · unfold Parser.accept
    intro b s' ended
    rw [bind_assoc, bind_ok (isNext_apply t s), decide_eq_true next] at ended
    change (Parser.advance >>= fun _ => k true) s = _ at ended
    exact advance next taken ended
  · intro b s' ended
    rw [bind_ok (accept_other t next)] at ended
    exact other next ended

end Reads

/-- The reader gives whatever the grammar writes with at most so many tokens, up to the view, and
reads exactly its tokens, if what follows them stops it. -/
def Accepts (view : α → β) (size : Nat) (r : Parser T M α) (G : α → List T → Prop)
    (stops : α → List T → Prop) : Prop :=
  ∀ ⦃a ts s s'⦄, ts.length ≤ size → G a ts → s.Past ts s' → stops a s'.items →
    ∃ a', r s = .ok a' s' ∧ view a' = view a

/-- The reader makes the mistake wherever the grammar writes something with at most so many tokens
and something follows that is bad behind it. -/
def Rejects (size : Nat) (r : Parser T M α) (G : α → List T → Prop) (bad : α → List T → Prop)
    (mistake : M) : Prop :=
  ∀ ⦃a ts s s'⦄, ts.length ≤ size → G a ts → s.Past ts s' → bad a s'.items →
    ∃ place s'', r s = .error ⟨mistake, place⟩ s''

/-- The grammar of a first part with any number of further parts behind it: `further a us b` says
that `us` behind `a` make `b`. -/
structure Chain (first : α → List T → Prop) (further : α → List T → α → Prop)
    (G : α → List T → Prop) : Prop where
  base : ∀ {a ts}, first a ts → G a ts
  more : ∀ {a ts b us}, G a ts → further a us b → G b (ts ++ us)
  split : ∀ {b ts}, G b ts → first b ts ∨
    ∃ a us vs, G a us ∧ further a vs b ∧ vs ≠ [] ∧ ts = us ++ vs

def chained (first : Parser T M α) (tail? : α → Parser T M (Option α)) : Parser T M α := do
  let a ← first
  chainPostfix tail? (← remaining) a

def rightOperand? (operator? : Parser T M (Option (α → α → α))) (operand : Parser T M α)
    (left : α) : Parser T M (Option α) := do
  match ← operator? with
  | none => pure none
  | some join =>
    let right ← operand
    pure (some (join left right))

theorem chainLeft_eq (operator? : Parser T M (Option (α → α → α))) (operand : Parser T M α)
    (bound : Nat) (left : α) :
    chainLeft operator? operand bound left =
      chainPostfix (rightOperand? operator? operand) bound left := by
  induction bound generalizing left with
  | zero => rfl
  | succ bound ih =>
      rw [chainLeft, chainPostfix, rightOperand?, bind_assoc]
      congr 1
      funext found
      cases found with
      | none => rfl
      | some join =>
          dsimp only
          rw [bind_assoc]
          congr 1
          funext right
          rw [ih, pure_bind]

theorem infixLeft_eq (operator? : Parser T M (Option (α → α → α))) (operand : Parser T M α) :
    infixLeft operator? operand = chained operand (rightOperand? operator? operand) := by
  unfold infixLeft chained
  simp only [chainLeft_eq]

namespace Chain

variable {first G : α → List T → Prop} {further : α → List T → α → Prop} {x : Parser T M α}
  {tail? : α → Parser T M (Option α)}

/-- What a reader of further parts gives: more than there was, or nothing. -/
def Adds (further : α → List T → α → Prop) (a : α) : Option α → List T → Prop
  | none, us => us = []
  | some b, us => further a us b

theorem reads_chainPostfix (c : Chain first further G)
    (tails : ∀ a s, Reads s (tail? a) (Adds further a)) (bound : Nat) {a : α} {ts : List T}
    (g : G a ts) : Reads s (chainPostfix tail? bound a) fun b us => G b (ts ++ us) := by
  induction bound generalizing a ts s with
  | zero => exact .give (by rwa [List.append_nil])
  | succ bound ih =>
      refine .andThen (tails a s) fun found us s' added _ => ?_
      cases found with
      | none =>
          cases added
          exact .give (by rwa [List.append_nil, List.append_nil])
      | some b =>
          have longer := ih (s := s') (c.more g added)
          simpa only [List.append_assoc] using longer

theorem reads (c : Chain first further G) (heads : ∀ s, Reads s x first)
    (tails : ∀ a s, Reads s (tail? a) (Adds further a)) (s : Stream T) :
    Reads s (chained x tail?) G := by
  refine .andThen (heads s) fun a ts s' g _ => .remaining fun bound => ?_
  exact c.reads_chainPostfix tails bound (c.base g)

section Accepts

variable {view : α → β} {size : Nat} {halts stops : α → List T → Prop}

/-- The whole of a chain is read as far as it is written, and the bound for the rest is large
enough. -/
theorem chained_apply (c : Chain first further G) (heads : Accepts view size x first halts)
    (goesOn : ∀ {a us b}, further a us b → ∀ rest, halts a (us ++ rest))
    (tails : ∀ {a a' us b s s'}, us.length ≤ size → further a us b → s.Past us s' →
      halts b s'.items → view a' = view a →
      ∃ b', tail? a' s = .ok (some b') s' ∧ view b' = view b)
    {b : α} {ts : List T} {s s' : Stream T} (bounded : ts.length ≤ size) (g : G b ts)
    (past : s.Past ts s') (halt : halts b s'.items) :
    ∃ b' bound, s'.ahead.length ≤ bound ∧ view b' = view b ∧
      chained x tail? s = chainPostfix tail? bound b' s' := by
  -- the last part is taken off, so that what is before it is shorter
  induction length : ts.length using Nat.strongRecOn generalizing b ts s' with
  | ind n ih =>
  rcases c.split g with one | ⟨a, us, vs, before, behind, nonempty, rfl⟩
  · obtain ⟨b', ran, same⟩ := heads bounded one past halt
    refine ⟨b', s'.ahead.length, Nat.le_refl _, same, ?_⟩
    unfold chained
    rw [bind_ok ran, bind_ok (remaining_apply s')]
  · have shorter : 0 < vs.length := List.length_pos_iff.mpr nonempty
    rw [List.length_append] at bounded length
    obtain ⟨s₁, pastUs, pastVs⟩ := Stream.past_append.mp past
    have halt₁ : halts a s₁.items := by
      rw [pastVs.items_eq]
      exact goesOn behind _
    obtain ⟨a', bound, enough, same, ran⟩ :=
      ih us.length (by omega) (by omega) before pastUs halt₁ rfl
    obtain ⟨b', added, same'⟩ := tails (by omega) behind pastVs halt same
    have read := pastVs.length_eq
    cases bound with
    | zero => omega
    | succ bound =>
        refine ⟨b', bound, by omega, same', ?_⟩
        rw [ran, chainPostfix, bind_ok added]

theorem accepts (c : Chain first further G) (heads : Accepts view size x first halts)
    (goesOn : ∀ {a us b}, further a us b → ∀ rest, halts a (us ++ rest))
    (tails : ∀ {a a' us b s s'}, us.length ≤ size → further a us b → s.Past us s' →
      halts b s'.items → view a' = view a →
      ∃ b', tail? a' s = .ok (some b') s' ∧ view b' = view b)
    (ends : ∀ {a a' s}, view a' = view a → stops a s.items → tail? a' s = .ok none s)
    (halting : ∀ {a rest}, stops a rest → halts a rest) :
    Accepts view size (chained x tail?) G stops := by
  intro b ts s s' bounded g past stop
  obtain ⟨b', bound, -, same, ran⟩ :=
    c.chained_apply heads goesOn tails bounded g past (halting stop)
  refine ⟨b', ?_, same⟩
  rw [ran]
  cases bound with
  | zero => rfl
  | succ bound =>
      rw [chainPostfix, bind_ok (ends same stop)]
      rfl

end Accepts
end Chain

section Infix

variable {view : α → β} {size : Nat} {operator : (α → α → α) → List T → Prop}
  {operand level : α → List T → Prop} {operator? : Parser T M (Option (α → α → α))}
  {x : Parser T M α}

/-- What an operator with its right operand makes of the left one. -/
def Joined (operator : (α → α → α) → List T → Prop) (operand : α → List T → Prop) (left : α)
    (us : List T) (whole : α) : Prop :=
  ∃ join sign right ts, operator join sign ∧ operand right ts ∧ us = sign ++ ts ∧
    whole = join left right

/-- An operator that was read, or none. -/
def Found (operator : (α → α → α) → List T → Prop) : Option (α → α → α) → List T → Prop
  | none, sign => sign = []
  | some join, sign => operator join sign

theorem reads_infixLeft (c : Chain operand (Joined operator operand) level)
    (operators : ∀ s, Reads s operator? (Found operator)) (operands : ∀ s, Reads s x operand)
    (s : Stream T) : Reads s (infixLeft operator? x) level := by
  rw [infixLeft_eq]
  refine c.reads operands (fun left s => ?_) s
  refine .andThen (operators s) fun found sign s' spelled _ => ?_
  cases found with
  | none => exact .give (by rw [List.append_nil]; exact spelled)
  | some join =>
      refine .andThen (operands s') fun right ts _ written _ => .give ?_
      exact ⟨join, sign, right, ts, spelled, written, by rw [List.append_nil], rfl⟩

variable {halts : α → List T → Prop}

theorem Joined.halted {a b : α} {us : List T} (joined : Joined operator operand a us b)
    (goesOn : ∀ {join sign}, operator join sign → ∀ left rest, halts left (sign ++ rest))
    (rest : List T) : halts a (us ++ rest) := by
  obtain ⟨join, sign, r, ts, spelled, -, rfl, -⟩ := joined
  rw [List.append_assoc]
  exact goesOn spelled a (ts ++ rest)

theorem rightOperand?_apply
    (operators : ∀ {join sign s s'}, operator join sign → s.Past sign s' →
      ∃ join', operator? s = .ok (some join') s' ∧ ∀ l l' r r', view l' = view l →
        view r' = view r → view (join' l' r') = view (join l r))
    (operands : Accepts view size x operand halts)
    (right : ∀ {join sign}, operator join sign → ∀ l r rest, halts (join l r) rest → halts r rest)
    {a a' b : α} {us : List T} {s s' : Stream T} (bounded : us.length ≤ size)
    (joined : Joined operator operand a us b) (past : s.Past us s') (halt : halts b s'.items)
    (same : view a' = view a) :
    ∃ b', rightOperand? operator? x a' s = .ok (some b') s' ∧ view b' = view b := by
  obtain ⟨join, sign, r, ts, spelled, written, rfl, rfl⟩ := joined
  obtain ⟨s₁, pastSign, pastRight⟩ := Stream.past_append.mp past
  obtain ⟨join', read, joins⟩ := operators spelled pastSign
  have short : ts.length ≤ size := by
    rw [List.length_append] at bounded
    omega
  obtain ⟨r', readRight, same'⟩ := operands short written pastRight (right spelled a r _ halt)
  refine ⟨join' a' r', ?_, joins a a' r r' same same'⟩
  unfold rightOperand?
  rw [bind_ok read]
  exact bind_ok readRight

section Accepted

variable {s s' : Stream T}
  (c : Chain operand (Joined operator operand) level)
  (operators : ∀ {join sign s s'}, operator join sign → s.Past sign s' →
    ∃ join', operator? s = .ok (some join') s' ∧ ∀ l l' r r', view l' = view l →
      view r' = view r → view (join' l' r') = view (join l r))
  (operands : Accepts view size x operand halts)
  (goesOn : ∀ {join sign}, operator join sign → ∀ left rest, halts left (sign ++ rest))
  (right : ∀ {join sign}, operator join sign → ∀ l r rest, halts (join l r) rest → halts r rest)
include c operators operands goesOn right

theorem infixLeft_apply {b : α} {ts : List T} (bounded : ts.length ≤ size) (g : level b ts)
    (past : s.Past ts s') (halt : halts b s'.items) :
    ∃ b' bound, s'.ahead.length ≤ bound ∧ view b' = view b ∧ infixLeft operator? x s =
      chainPostfix (rightOperand? operator? x) bound b' s' := by
  rw [infixLeft_eq]
  exact c.chained_apply operands (fun joined => joined.halted goesOn)
    (rightOperand?_apply operators operands right) bounded g past halt

theorem accepts_infixLeft {stops : α → List T → Prop}
    (ends : ∀ {a s}, stops a s.items → operator? s = .ok none s)
    (halting : ∀ {a rest}, stops a rest → halts a rest) :
    Accepts view size (infixLeft operator? x) level stops := by
  rw [infixLeft_eq]
  refine c.accepts operands (fun joined => joined.halted goesOn)
    (rightOperand?_apply operators operands right) ?_ halting
  intro a a' s same stop
  unfold rightOperand?
  rw [bind_ok (ends stop)]
  rfl

theorem rejects_at_operator {bad : α → List T → Prop} {mistake : M}
    (refuse : ∀ {a} {s : Stream T}, bad a s.items →
      ∃ place s', operator? s = .error ⟨mistake, place⟩ s')
    (halting : ∀ {a rest}, bad a rest → halts a rest) (nonempty : ∀ a, ¬ bad a []) :
    Rejects size (infixLeft operator? x) level bad mistake := by
  intro b ts s s' bounded g past isBad
  obtain ⟨b', bound, enough, -, ran⟩ :=
    infixLeft_apply c operators operands goesOn right bounded g past (halting isBad)
  obtain ⟨place, s'', failed⟩ := refuse isBad
  refine ⟨place, s'', ?_⟩
  rw [ran]
  cases bound with
  | zero =>
      have none : s'.items = [] := by
        rw [← List.length_eq_zero_iff, Stream.length_items]
        omega
      exact absurd (none ▸ isBad) (nonempty b)
  | succ bound =>
      rw [chainPostfix]
      refine bind_error ?_
      unfold rightOperand?
      exact bind_error failed

theorem rejects_at_operand {bad : α → List T → Prop} {mistake : M}
    (refuse : Rejects size x operand bad mistake)
    (last : ∀ {join sign}, operator join sign → ∀ l r rest, bad (join l r) rest → bad r rest) :
    Rejects size (infixLeft operator? x) level bad mistake := by
  intro b ts s s' bounded g past isBad
  rcases c.split g with one | ⟨a, us, vs, before, joined, nonempty, rfl⟩
  · obtain ⟨place, s'', failed⟩ := refuse bounded one past isBad
    exact ⟨place, s'', bind_error failed⟩
  · obtain ⟨s₁, pastUs, pastVs⟩ := Stream.past_append.mp past
    have halt : halts a s₁.items := by
      rw [pastVs.items_eq]
      exact joined.halted goesOn _
    have some : 0 < vs.length := List.length_pos_iff.mpr nonempty
    have read := pastVs.length_eq
    rw [List.length_append] at bounded
    obtain ⟨a', bound, enough, -, ran⟩ :=
      infixLeft_apply c operators operands goesOn right (by omega) before pastUs halt
    obtain ⟨join, sign, r, ts, spelled, written, rfl, rfl⟩ := joined
    obtain ⟨s₂, pastSign, pastRight⟩ := Stream.past_append.mp pastVs
    obtain ⟨join', operated, -⟩ := operators spelled pastSign
    rw [List.length_append] at bounded
    obtain ⟨place, s'', failed⟩ :=
      refuse (by omega) written pastRight (last spelled a r _ isBad)
    refine ⟨place, s'', ?_⟩
    rw [ran]
    cases bound with
    | zero => omega
    | succ bound =>
        rw [chainPostfix]
        refine bind_error ?_
        unfold rightOperand?
        rw [bind_ok operated]
        exact bind_error failed

end Accepted
end Infix
end Parser
end Walkthrough
