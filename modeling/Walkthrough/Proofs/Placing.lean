import Walkthrough.Proofs.Reading

/-! What readers of tokens give, where the places of the tokens count. A reader takes the place of
what it makes from the next token before it reads it; so whatever is true of the places of all
tokens is true of the places in what is made of them. -/

namespace Walkthrough

/-- The tokens that count, and the places at which they may stand. -/
structure Layout (T : Type) where
  counts : T → Prop
  fits : Position → Prop

namespace Stream

variable {T : Type} (L : Layout T)

def LaidOut (s : Stream T) : Prop :=
  ∀ t ∈ s.ahead, L.counts t.item → L.fits t.position

/-- The place is that of the next token, so it is a good one if that token counts. -/
def BeginsAt (s : Stream T) (place : Position) : Prop :=
  ∀ t, s.items.head? = some t → L.counts t → L.fits place

variable {L} {s s' : Stream T} {ts : List T}

theorem LaidOut.past (out : s.LaidOut L) (past : s.Past ts s') : s'.LaidOut L := by
  induction ts generalizing s with
  | nil =>
      cases past
      exact out
  | cons t ts ih =>
      obtain ⟨place, rest, ahead, past⟩ := past
      apply ih _ past
      intro token member
      apply out
      rw [ahead]
      exact List.mem_cons_of_mem _ member

theorem LaidOut.beginsAt (out : s.LaidOut L) :
    s.BeginsAt L ((s.ahead.head?.map (·.position)).getD s.stop) := by
  intro t next counts
  obtain ⟨last, ahead, stop⟩ := s
  cases ahead with
  | nil => cases next
  | cons token rest =>
      cases next
      exact out token List.mem_cons_self counts

end Stream

namespace Parser

variable {T M α β : Type} {L : Layout T} {s : Stream T}

/-- Whatever the reader gives from tokens that are laid out well is good, and leaves such tokens. -/
def Gives (L : Layout T) (s : Stream T) (r : Parser T M α) (Q : α → Prop) : Prop :=
  s.LaidOut L → ∀ ⦃a s'⦄, r s = .ok a s' → s'.LaidOut L ∧ Q a

namespace Gives

variable {x : Parser T M α} {k : α → Parser T M β} {Q : α → Prop} {R : β → Prop}

theorem give {a : α} (good : Q a) : Gives (M := M) L s (pure a) Q := by
  intro out b s' ended
  cases ended
  exact ⟨out, good⟩

theorem fail (mistake : M) : Gives L s (Parser.fail (α := α) mistake) Q := by
  intro _ a s' ended
  cases ended

theorem andThen (hx : Gives L s x Q)
    (hk : ∀ a s', x s = .ok a s' → Q a → Gives L s' (k a) R) : Gives L s (x >>= k) R := by
  intro out b s'' ended
  rw [bind_apply] at ended
  split at ended
  · next a s' ran =>
      obtain ⟨out', good⟩ := hx out ran
      exact hk a s' ran good out' ended
  · cases ended

theorem never (hx : Gives L s x fun _ => False) : Gives L s (x >>= k) R :=
  hx.andThen fun _ _ _ never => never.elim

theorem weaken {Q' : α → Prop} (h : Gives L s x Q) (weaker : ∀ a, Q a → Q' a) :
    Gives L s x Q' := by
  intro out a s' ended
  obtain ⟨out', good⟩ := h out ended
  exact ⟨out', weaker a good⟩

theorem seen {x : Parser T M α} {a : α} (ran : x s = .ok a s) (h : Gives L s (k a) R) :
    Gives L s (x >>= k) R := by
  intro out b s' ended
  rw [bind_ok ran] at ended
  exact h out ended

theorem position {k : Position → Parser T M β}
    (h : ∀ place, s.BeginsAt L place → Gives L s (k place) R) :
    Gives L s (Parser.position >>= k) R := by
  intro out b s' ended
  exact h _ out.beginsAt out ended

theorem peek {k : Option T → Parser T M β} (h : Gives L s (k s.items.head?) R) :
    Gives L s (peek? >>= k) R :=
  seen (peek?_apply s) h

theorem peekSecond {k : Option T → Parser T M β} (h : ∀ t?, Gives L s (k t?) R) :
    Gives L s (peekSecond? >>= k) R :=
  seen (peekSecond?_apply s) (h _)

theorem peekThird {k : Option T → Parser T M β} (h : ∀ t?, Gives L s (k t?) R) :
    Gives L s (peekThird? >>= k) R :=
  seen (a := s.ahead.tail.tail.head?.map (·.item)) rfl (h _)

theorem remaining {k : Nat → Parser T M β} (h : ∀ bound, Gives L s (k bound) R) :
    Gives L s (Parser.remaining >>= k) R :=
  seen (remaining_apply s) (h _)

theorem atEnd {k : Bool → Parser T M β} (h : ∀ ended, Gives L s (k ended) R) :
    Gives L s (Parser.atEnd >>= k) R :=
  seen (a := s.ahead.isEmpty) rfl (h _)

theorem advance {k : Unit → Parser T M β} (h : ∀ s', Gives L s' (k ()) R) :
    Gives L s (Parser.advance >>= k) R := by
  intro out b s'' ended
  obtain ⟨last, ahead, stop⟩ := s
  cases ahead with
  | nil => exact h _ out ended
  | cons token rest =>
      have behind : Stream.LaidOut L ⟨some token.item, rest, stop⟩ := by
        intro t member
        exact out t (List.mem_cons_of_mem _ member)
      exact h _ behind ended

variable [DecidableEq T]

theorem isNext {k : Bool → Parser T M β} (t : T) (h : ∀ found, Gives L s (k found) R) :
    Gives L s (Parser.isNext t >>= k) R :=
  seen (isNext_apply t s) (h _)

theorem accept {k : Bool → Parser T M β} (t : T)
    (taken : s.items.head? = some t → ∀ s', Gives L s' (k true) R)
    (other : Gives L s (k false) R) : Gives L s (Parser.accept t >>= k) R := by
  by_cases next : s.items.head? = some t
  · obtain ⟨s', past⟩ := Stream.past_of_head? next
    intro out b s'' ended
    rw [bind_ok (accept_next t past)] at ended
    exact taken next s' (out.past past) ended
  · exact seen (accept_other t next) other

end Gives

section Chains

variable {x : Parser T M α} {Q : α → Prop}

theorem gives_chainPostfix {tail? : α → Parser T M (Option α)}
    (tails : ∀ a s, Q a → Gives L s (tail? a) fun found => ∀ b ∈ found, Q b) (bound : Nat) {a : α}
    (good : Q a) : Gives L s (chainPostfix tail? bound a) Q := by
  induction bound generalizing a s with
  | zero => exact .give good
  | succ bound ih =>
      refine .andThen (tails a s good) fun found s' _ longer => ?_
      cases found with
      | none => exact .give good
      | some b => exact ih (longer b rfl)

theorem gives_infixLeft {operator? : Parser T M (Option (α → α → α))}
    (operators : ∀ s, Gives L s operator? fun found =>
      ∀ join ∈ found, ∀ left right, Q left → Q right → Q (join left right))
    (operands : ∀ s, Gives L s x Q) (s : Stream T) : Gives L s (infixLeft operator? x) Q := by
  rw [infixLeft_eq]
  refine .andThen (operands s) fun a s' _ good => .remaining fun bound => ?_
  refine gives_chainPostfix (fun left s good => ?_) bound good
  refine .andThen (operators s) fun found s' _ joins => ?_
  cases found with
  | none => exact .give nofun
  | some join =>
      refine .andThen (operands s') fun right s'' _ good' => .give ?_
      rintro _ ⟨⟩
      exact joins join rfl left right good good'

end Chains
end Parser
end Walkthrough
