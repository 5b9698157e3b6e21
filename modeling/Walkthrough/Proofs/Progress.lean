import Mathlib.Logic.Function.Iterate
import Walkthrough.Proofs.Reading

/-! Readers that get on. A recursion is cut into rounds, each of which is given what to go on with.
If it goes on only where a token was read before, then two ways to go on that do the same with fewer
tokens do the same after another round. So after as many rounds as there are tokens it does not
matter what comes next: the recursion has ended. -/

namespace Walkthrough
namespace Parser

variable {T M α β ι : Type} {s : Stream T}

/-- The stream that a reader leaves, when it succeeds and when it fails. -/
def left : EStateM.Result (Located M) (Stream T) α → Stream T
  | .ok _ s => s
  | .error _ s => s

/-- The reader never goes back or past the end, and when it succeeds it has read a token. -/
structure Advances (x : Parser T M α) : Prop where
  onward : ∀ s, (left (x s)).ahead <:+ s.ahead
  reads : ∀ ⦃s a s'⦄, x s = .ok a s' → s'.ahead.length < s.ahead.length

/-- A reader of what may be there. It never goes back or past the end, what it finds it has read,
and at the end of the source it does nothing. -/
structure Probes (x : Parser T M (Option α)) : Prop where
  onward : ∀ s, (left (x s)).ahead <:+ s.ahead
  reads : ∀ ⦃s a s'⦄, x s = .ok (some a) s' → s'.ahead.length < s.ahead.length
  ended : ∀ last stop, x ⟨last, [], stop⟩ = .ok none ⟨last, [], stop⟩

/-- The bounded recursion goes round by round, and it ends on every stream: after some number of
rounds it does not matter how it would go on, and a bound of as many rounds as there are tokens is
not used up before that. -/
structure Terminates (round : (ι → Parser T M α) → ι → Parser T M α) (f : Nat → ι → Parser T M α) :
    Prop where
  next : ∀ n i, f (n + 1) i = round (f n) i
  ends : ∀ i s, ∃ n, ∀ rest bound, s.ahead.length ≤ bound → f bound i s = round^[n] rest i s

/-- The parser of a language gets on: expressions and statements, however deep they may nest, read
tokens, and a program is read when no token is left. -/
structure GetsOn {ε σ π : Type} (expression : Parser T M ε) (nested : Nat → Parser T M ε)
    (statement : Nat → Bool → Parser T M σ) (program : Parser T M π) : Prop where
  expression : Advances expression
  nested : ∀ bound, Advances (nested bound)
  statement : ∀ bound topLevel, Advances (statement bound topLevel)
  onward : ∀ s, (left (program s)).ahead <:+ s.ahead
  consumed : ∀ ⦃s made s'⦄, program s = .ok made s' → s'.ahead = []

/-! ### Two readers on one stream -/

/-- On the stream both readers do the same. They go neither back nor past the end, and what they
give fits the number of tokens that are left. -/
structure Agree (s : Stream T) (x y : Parser T M α) (Q : α → Nat → Prop) : Prop where
  same : x s = y s
  onward : (left (x s)).ahead <:+ s.ahead
  fits : ∀ ⦃a s'⦄, x s = .ok a s' → Q a s'.ahead.length

/-- A token has been read. -/
abbrev Shorter (s : Stream T) : α → Nat → Prop :=
  fun _ left => left < s.ahead.length

/-- If something was found, a token has been read. -/
abbrev Consumed (s : Stream T) : Option α → Nat → Prop :=
  fun found left => found.isSome → left < s.ahead.length

/-- The same, by the number of tokens before and after. -/
abbrev Fewer (before after : Nat) : Prop :=
  after < before

abbrev Anyhow (_ _ : Nat) : Prop :=
  True

theorem Advances.agree {x : Parser T M α} (advances : Advances x) (s : Stream T) :
    Agree s x x (Shorter s) :=
  ⟨rfl, advances.onward s, fun _ _ ended => advances.reads ended⟩

theorem advances_of_agree {x : Parser T M α} (agree : ∀ s, Agree s x x (Shorter s)) : Advances x :=
  ⟨fun s => (agree s).onward, fun s _ _ ended => (agree s).fits ended⟩

theorem Advances.fails {x : Parser T M α} (advances : Advances x) (last : Option T)
    (stop : Position) : ∃ mistake s', x ⟨last, [], stop⟩ = .error mistake s' := by
  cases ran : x ⟨last, [], stop⟩ with
  | ok a s' => exact absurd (advances.reads ran) (Nat.not_lt_zero _)
  | error mistake s' => exact ⟨mistake, s', rfl⟩

theorem Probes.agree {x : Parser T M (Option α)} (probes : Probes x) (s : Stream T) :
    Agree s x x (Consumed s) := by
  refine ⟨rfl, probes.onward s, fun found s' ended => ?_⟩
  cases found with
  | none => exact nofun
  | some a => exact fun _ => probes.reads ended

theorem probes_of_agree {x : Parser T M (Option α)} (agree : ∀ s, Agree s x x (Consumed s))
    (ended : ∀ last stop, x ⟨last, [], stop⟩ = .ok none ⟨last, [], stop⟩) : Probes x :=
  ⟨fun s => (agree s).onward, fun s _ _ ran => (agree s).fits ran rfl, ended⟩

namespace Agree

variable {x y : Parser T M α} {k l : α → Parser T M β} {P : α → Nat → Prop} {Q : β → Nat → Prop}

theorem give {b : β} (fits : Q b s.ahead.length) : Agree (M := M) s (pure b) (pure b) Q := by
  refine ⟨rfl, List.suffix_refl _, fun a s' ended => ?_⟩
  cases ended
  exact fits

theorem fail (mistake : M) : Agree s (Parser.fail mistake) (Parser.fail mistake) Q :=
  ⟨rfl, List.suffix_refl _, fun _ _ ended => nomatch ended⟩

theorem throw (mistake : Located M) :
    Agree s (MonadExcept.throw mistake) (MonadExcept.throw mistake) Q :=
  ⟨rfl, List.suffix_refl _, fun _ _ ended => nomatch ended⟩

theorem past {s₀ : Stream T} (agree : Agree s x y P) (shorter : s.ahead.length < s₀.ahead.length) :
    Agree s x y (Shorter s₀) := by
  refine ⟨agree.same, agree.onward, fun a s' ended => ?_⟩
  have onward := agree.onward.length_le
  rw [ended] at onward
  exact Nat.lt_of_le_of_lt onward shorter

theorem andThen (hx : Agree s x y P)
    (hk : ∀ a s', s'.ahead.length ≤ s.ahead.length → P a s'.ahead.length →
      Agree s' (k a) (l a) Q) : Agree s (x >>= k) (y >>= l) Q := by
  obtain ⟨same, onward, fits⟩ := hx
  cases ran : x s with
  | ok a s' =>
      rw [ran] at same onward
      have behind := hk a s' onward.length_le (fits ran)
      have step : (x >>= k) s = k a s' := bind_ok ran
      refine ⟨?_, ?_, fun b s'' ended => ?_⟩
      · rw [step, bind_ok same.symm, behind.same]
      · rw [step]
        exact behind.onward.trans onward
      · rw [step] at ended
        exact behind.fits ended
  | error mistake s' =>
      rw [ran] at same onward
      have step : (x >>= k) s = .error mistake s' := bind_error ran
      refine ⟨?_, ?_, fun b s'' ended => ?_⟩
      · rw [step, bind_error same.symm]
      · rw [step]
        exact onward
      · rw [step] at ended
        cases ended

theorem never (hx : Agree s x y fun _ _ => False) : Agree s (x >>= k) (y >>= l) Q :=
  andThen hx fun _ _ _ given => given.elim

theorem seen {x : Parser T M α} {a : α} (ran : x s = .ok a s) (h : Agree s (k a) (l a) Q) :
    Agree s (x >>= k) (x >>= l) Q := by
  obtain ⟨same, onward, fits⟩ := h
  refine ⟨?_, ?_, fun b s' ended => ?_⟩
  · rw [bind_ok ran, bind_ok ran, same]
  · rw [bind_ok ran]
    exact onward
  · rw [bind_ok ran] at ended
    exact fits ended

theorem position {k l : Position → Parser T M β} (h : ∀ place, Agree s (k place) (l place) Q) :
    Agree s (Parser.position >>= k) (Parser.position >>= l) Q := by
  obtain ⟨place, ran⟩ := position_apply (M := M) s
  exact seen ran (h place)

theorem remaining {k l : Nat → Parser T M β}
    (h : Agree s (k s.ahead.length) (l s.ahead.length) Q) :
    Agree s (Parser.remaining >>= k) (Parser.remaining >>= l) Q :=
  seen (remaining_apply s) h

theorem peek {k l : Option T → Parser T M β}
    (h : ∀ t?, s.items.head? = t? → Agree s (k t?) (l t?) Q) :
    Agree s (peek? >>= k) (peek? >>= l) Q :=
  seen (peek?_apply s) (h _ rfl)

theorem peekSecond {k l : Option T → Parser T M β} (h : ∀ t?, Agree s (k t?) (l t?) Q) :
    Agree s (peekSecond? >>= k) (peekSecond? >>= l) Q :=
  seen (peekSecond?_apply s) (h _)

theorem peekThird {k l : Option T → Parser T M β} (h : ∀ t?, Agree s (k t?) (l t?) Q) :
    Agree s (peekThird? >>= k) (peekThird? >>= l) Q :=
  seen (a := s.ahead.tail.tail.head?.map (·.item)) rfl (h _)

theorem atEnd {k l : Bool → Parser T M β} (ended : s.ahead = [] → Agree s (k true) (l true) Q)
    (goesOn : s.ahead ≠ [] → Agree s (k false) (l false) Q) :
    Agree s (Parser.atEnd >>= k) (Parser.atEnd >>= l) Q := by
  have ran : Parser.atEnd (M := M) s = .ok s.ahead.isEmpty s := rfl
  cases ahead : s.ahead with
  | nil =>
      rw [ahead] at ran
      exact seen ran (ended ahead)
  | cons token rest =>
      rw [ahead] at ran
      exact seen ran (goesOn (by rw [ahead]; exact List.cons_ne_nil _ _))

theorem advance {k l : Unit → Parser T M β} {t : T} (next : s.items.head? = some t)
    (h : ∀ s', s'.ahead.length < s.ahead.length → Agree s' (k ()) (l ()) Q) :
    Agree s (Parser.advance >>= k) (Parser.advance >>= l) Q := by
  obtain ⟨s', past⟩ := Stream.past_of_head? next
  have ran := advance_apply (M := M) past
  have shorter : s'.ahead.length < s.ahead.length := by
    rw [past.length_eq, List.length_singleton]
    omega
  obtain ⟨place, rest, ahead, rfl⟩ := past
  refine andThen (P := fun _ left => left < s.ahead.length) ⟨rfl, ?_, fun _ _ ended => ?_⟩ ?_
  · rw [ran, ahead]
    exact List.suffix_cons _ _
  · rw [ran] at ended
    cases ended
    exact shorter
  · exact fun _ s' _ shorter => h s' shorter

theorem advanceMaybe {k l : Unit → Parser T M β}
    (h : ∀ s', s'.ahead.length ≤ s.ahead.length → Agree s' (k ()) (l ()) Q) :
    Agree s (Parser.advance >>= k) (Parser.advance >>= l) Q := by
  cases next : s.items.head? with
  | some t => exact advance next fun s' shorter => h s' (Nat.le_of_lt shorter)
  | none =>
      obtain ⟨last, ahead, stop⟩ := s
      cases ahead with
      | nil => exact seen rfl (h _ (Nat.le_refl _))
      | cons _ _ => cases next

variable [DecidableEq T]

theorem isNext {k l : Bool → Parser T M β} (t : T) (h : ∀ found, Agree s (k found) (l found) Q) :
    Agree s (Parser.isNext t >>= k) (Parser.isNext t >>= l) Q :=
  seen (isNext_apply t s) (h _)

theorem accept {k l : Bool → Parser T M β} (t : T)
    (taken : ∀ s', s'.ahead.length < s.ahead.length → Agree s' (k true) (l true) Q)
    (other : Agree s (k false) (l false) Q) :
    Agree s (Parser.accept t >>= k) (Parser.accept t >>= l) Q := by
  by_cases next : s.items.head? = some t
  · unfold Parser.accept
    rw [bind_assoc, bind_assoc]
    refine seen (isNext_apply t s) ?_
    rw [decide_eq_true next]
    change Agree s (Parser.advance >>= fun _ => k true) (Parser.advance >>= fun _ => l true) Q
    exact advance next taken
  · exact seen (accept_other t next) other

end Agree

/-! ### Recursion -/

/-- On streams with fewer tokens both readers do the same. -/
def Alike (Q : Nat → Nat → Prop) (n : Nat) (x y : Parser T M α) : Prop :=
  ∀ s, s.ahead.length < n → Agree s x y fun _ left => Q s.ahead.length left

/-- A round goes on only after it has read a token. -/
def Guarded (Q : Nat → Nat → Prop) (round : (ι → Parser T M α) → ι → Parser T M α) : Prop :=
  ∀ ⦃s rest rest'⦄, (∀ i, Alike Q s.ahead.length (rest i) (rest' i)) →
    ∀ i, Agree s (round rest i) (round rest' i) fun _ left => Q s.ahead.length left

/-- The recursion with a bound. At the end of the source it does not matter that the bound is used
up. -/
structure Bounded (round : (ι → Parser T M α) → ι → Parser T M α) (f : Nat → ι → Parser T M α) :
    Prop where
  next : ∀ n i, f (n + 1) i = round (f n) i
  last : ∀ i last stop, f 0 i ⟨last, [], stop⟩ = round (f 0) i ⟨last, [], stop⟩

theorem Alike.mono {Q : Nat → Nat → Prop} {m n : Nat} {x y : Parser T M α} (alike : Alike Q n x y)
    (le : m ≤ n) : Alike Q m x y :=
  fun s short => alike s (Nat.lt_of_lt_of_le short le)

theorem Advances.alike {x : Parser T M α} (advances : Advances x) (n : Nat) : Alike Fewer n x x :=
  fun s _ => advances.agree s

theorem advances_of_alike {x : Parser T M α} (alike : ∀ n, Alike Fewer n x x) : Advances x :=
  advances_of_agree fun s => alike _ s (Nat.lt_succ_self _)

section Recursion

variable {Q : Nat → Nat → Prop} {round : (ι → Parser T M α) → ι → Parser T M α}
  {f : Nat → ι → Parser T M α}

/-- With a bound of as many rounds as there are tokens the recursion does what the rounds do,
whatever comes behind them. A round asks for the next one only where there are fewer tokens, and
there a bound of one less is enough. -/
theorem Guarded.alike (guarded : Guarded Q round) (bounded : Bounded round f)
    (rest : ι → Parser T M α) (n : Nat) (i : ι) :
    Alike Q (n + 1) (f n i) (round^[n + 1] rest i) := by
  induction n generalizing i with
  | zero =>
      rintro ⟨last, ahead, stop⟩ short
      obtain rfl : ahead = [] := List.length_eq_zero_iff.mp (Nat.lt_one_iff.mp short)
      obtain ⟨same, onward, fits⟩ : Agree ⟨last, [], stop⟩ (round (f 0) i) (round rest i) _ :=
        guarded (fun j s' shorter => absurd shorter (Nat.not_lt_zero _)) i
      rw [← bounded.last i last stop] at same onward
      refine ⟨same, onward, fun a s' ended => ?_⟩
      rw [bounded.last] at ended
      exact fits ended
  | succ n ih =>
      intro s short
      rw [bounded.next, Function.iterate_succ_apply']
      refine guarded (fun j s' shorter => ih j s' ?_) i
      omega

theorem Guarded.advances (guarded : Guarded Fewer round) (bounded : Bounded round f)
    (first : ∀ i, Advances (f 0 i)) (n : Nat) (i : ι) : Advances (f n i) := by
  induction n generalizing i with
  | zero => exact first i
  | succ n ih =>
      rw [bounded.next]
      exact advances_of_agree fun s => guarded (fun j => (ih j).alike _) i

theorem Guarded.agree (guarded : Guarded Q round) (bounded : Bounded round f) {n : Nat}
    (short : s.ahead.length ≤ n) (i : ι) :
    Agree s (f n i) (f n i) fun _ left => Q s.ahead.length left := by
  have alike := guarded.alike bounded (f 0) n i s (Nat.lt_succ_of_le short)
  exact ⟨rfl, alike.onward, alike.fits⟩

/-- A recursion whose rounds read a token before they go on ends. -/
theorem Guarded.terminates (guarded : Guarded Q round) (bounded : Bounded round f) :
    Terminates round f where
  next := bounded.next
  ends i s := by
    have same {n : Nat} (short : s.ahead.length ≤ n) (rest : ι → Parser T M α) :
        f n i s = round^[n + 1] rest i s :=
      (guarded.alike bounded rest n i s (Nat.lt_succ_of_le short)).same
    refine ⟨s.ahead.length + 1, fun rest bound enough => ?_⟩
    -- the rounds beyond the number of tokens are one way to go on
    obtain ⟨more, rfl⟩ := Nat.exists_eq_add_of_le enough
    rw [same enough rest, Nat.add_right_comm, Function.iterate_add_apply,
      ← same (Nat.le_refl _) (round^[more] rest), same (Nat.le_refl _) rest]

end Recursion

/-! ### Chains -/

section Chains

variable {n : Nat}

def postfixRound (tail? : α → Parser T M (Option α)) (rest : α → Parser T M α) (item : α) :
    Parser T M α := do
  match ← tail? item with
  | none => pure item
  | some longer => rest longer

theorem agree_postfixRound {tail? tail?' : α → Parser T M (Option α)}
    {rest rest' : α → Parser T M α} {item : α}
    (tails : Agree s (tail? item) (tail?' item) (Consumed s))
    (goes : ∀ longer, Alike Anyhow s.ahead.length (rest longer) (rest' longer)) :
    Agree s (postfixRound tail? rest item) (postfixRound tail?' rest' item) fun _ _ => True := by
  refine .andThen tails fun found s' _ consumed => ?_
  cases found with
  | none => exact .give trivial
  | some longer => exact goes longer s' (consumed rfl)

theorem alike_chainPostfix {tail? tail?' : α → Parser T M (Option α)}
    (tails : ∀ item s, s.ahead.length < n → Agree s (tail? item) (tail?' item) (Consumed s))
    (bound : Nat) (item : α) :
    Alike Anyhow n (chainPostfix tail? bound item) (chainPostfix tail?' bound item) := by
  induction bound generalizing item with
  | zero => exact fun s _ => .give trivial
  | succ bound ih =>
      exact fun s short => agree_postfixRound (tails item s short) fun longer s' shorter =>
        ih longer s' (Nat.lt_trans shorter short)

theorem terminates_chainPostfix {tail? : α → Parser T M (Option α)}
    (tails : ∀ item, Probes (tail? item)) :
    Terminates (postfixRound tail?) (chainPostfix tail?) := by
  have bounded : Bounded (postfixRound tail?) (chainPostfix tail?) := by
    refine ⟨fun _ _ => rfl, fun item last stop => ?_⟩
    unfold postfixRound
    rw [bind_ok ((tails item).ended last stop)]
    rfl
  have guarded : Guarded Anyhow (postfixRound tail?) :=
    fun s rest rest' goes item => agree_postfixRound ((tails item).agree s) goes
  exact guarded.terminates bounded

def leftRound (operator? : Parser T M (Option (α → α → α))) (operand : Parser T M α)
    (rest : α → Parser T M α) (left : α) : Parser T M α := do
  match ← operator? with
  | none => pure left
  | some join =>
    let right ← operand
    rest (join left right)

section Infix

variable {operator? : Parser T M (Option (α → α → α))} {operand operand' : Parser T M α}

theorem agree_leftRound {rest rest' : α → Parser T M α} {left : α} (probes : Probes operator?)
    (operands : Alike Fewer s.ahead.length operand operand')
    (goes : ∀ joined, Alike Anyhow s.ahead.length (rest joined) (rest' joined)) :
    Agree s (leftRound operator? operand rest left) (leftRound operator? operand' rest' left)
      fun _ _ => True := by
  refine .andThen (probes.agree s) fun found s₁ _ consumed => ?_
  cases found with
  | none => exact .give trivial
  | some join =>
      have shorter : s₁.ahead.length < s.ahead.length := consumed rfl
      refine .andThen (operands s₁ shorter) fun right s₂ _ shorter' => ?_
      exact goes _ s₂ (Nat.lt_trans shorter' shorter)

theorem alike_chainLeft (probes : Probes operator?) (operands : Alike Fewer n operand operand')
    (bound : Nat) (left : α) :
    Alike Anyhow n (chainLeft operator? operand bound left)
      (chainLeft operator? operand' bound left) := by
  induction bound generalizing left with
  | zero => exact fun s _ => .give trivial
  | succ bound ih =>
      intro s short
      refine agree_leftRound probes (fun s' shorter => ?_) fun joined s' shorter => ?_
      · exact operands s' (by omega)
      · exact ih joined s' (by omega)

theorem terminates_chainLeft (probes : Probes operator?) (advances : Advances operand) :
    Terminates (leftRound operator? operand) (chainLeft operator? operand) := by
  have bounded : Bounded (leftRound operator? operand) (chainLeft operator? operand) := by
    refine ⟨fun _ _ => rfl, fun left last stop => ?_⟩
    unfold leftRound
    rw [bind_ok (probes.ended last stop)]
    rfl
  have guarded : Guarded Anyhow (leftRound operator? operand) :=
    fun s rest rest' goes left => agree_leftRound probes (fun s' _ => advances.agree s') goes
  exact guarded.terminates bounded

theorem alike_infixLeft (probes : Probes operator?) (operands : Alike Fewer n operand operand') :
    Alike Fewer n (infixLeft operator? operand) (infixLeft operator? operand') := by
  intro s short
  refine .andThen (operands s short) fun a s₁ _ shorter => .remaining ?_
  exact (alike_chainLeft probes operands _ a s₁ (Nat.lt_trans shorter short)).past shorter

end Infix
end Chains
end Parser
end Walkthrough
