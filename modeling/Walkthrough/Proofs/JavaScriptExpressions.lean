import Walkthrough.Proofs.JavaScriptGrammar

/-! The reader of JavaScript expressions reads their grammar: what it gives is canonical and was
written there, and what is written there it gives. Targets are read as what they begin, before the
sign that stores to them is seen: a target is tight enough to be read whole in front of the sign,
and whatever else was read there is refused. -/

namespace Walkthrough.JavaScript.Reader

open Walkthrough.Parser

def Whole (e : Expr) (ts : List Token) : Prop :=
  e.isCanonical = true ∧ Spells e ts

theorem fits_zero : Fits 0 = Whole := by
  funext e ts
  exact propext ⟨fun h => ⟨h.canonical, h.spells⟩, fun h => ⟨Nat.zero_le _, h.1, h.2⟩⟩

theorem items_whole {trailing : Bool} {es : List Expr} {ts : List Token} :
    Items Whole trailing es ts ↔ Expr.allCanonical es = true ∧ Items Spells trailing es ts := by
  rw [allCanonical_iff]
  exact items_and (P := fun e : Expr => e.isCanonical = true)

theorem items_properties {trailing : Bool} {es : List (String × Expr)} {ts : List Token} :
    Items (Property Whole) trailing es ts ↔
      Expr.propertiesCanonical es = true ∧ Items (Property Spells) trailing es ts := by
  have each : Property Whole = fun e ts => e.2.isCanonical = true ∧ Property Spells e ts := by
    funext e ts
    refine propext ⟨?_, ?_⟩
    · rintro (⟨canonical, spells⟩ | ⟨canonical, spells⟩)
      · exact ⟨canonical, .name spells⟩
      · exact ⟨canonical, .text spells⟩
    · rintro ⟨canonical, spells | spells⟩
      · exact .name ⟨canonical, spells⟩
      · exact .text ⟨canonical, spells⟩
  rw [propertiesCanonical_iff, each]
  exact items_and (P := fun e : String × Expr => e.2.isCanonical = true)

section Sound

variable {s : Stream Token}

theorem reads_failMissing {α : Type} (expected : Expected) (G : α → List Token → Prop) :
    Reads s (failMissing expected) G :=
  .peek (.fail _)

theorem reads_expect (mark : Mark) (expected : Expected) :
    Reads s (expect mark expected) fun _ ts => ts = [.mark mark] := by
  refine .accept (Token.mark mark) (fun s' _ => .give rfl) fun _ => ?_
  exact reads_failMissing expected _

theorem reads_expectName (expected : Expected) :
    Reads s (expectName expected) fun word ts => ts = [.name word] := by
  refine .peek ?_
  split
  · next word next => exact .advance next fun s₁ _ => .give rfl
  · exact reads_failMissing expected _

section Items

variable {α : Type} {item : Reader α} {written : α → List Token → Prop}
  (items : ∀ s, Reads s item written)
include items

theorem reads_commaSeparated (bound : Nat) :
    Reads s (commaSeparated item bound) fun xs ts => xs ≠ [] ∧ Items written false xs ts := by
  induction bound generalizing s with
  | zero =>
      refine .andThen (items s) fun a ts s' first _ => .give ?_
      rw [List.append_nil]
      exact ⟨List.cons_ne_nil a [], .last first⟩
  | succ bound ih =>
      refine .andThen (items s) fun a ts s₁ first _ => ?_
      refine .accept (Token.mark .comma) (fun s₂ _ => ?_) fun _ => .give ?_
      · refine .andThen ih fun rest us s₃ ⟨nonempty, others⟩ _ => .give ?_
        rw [List.append_nil]
        exact ⟨List.cons_ne_nil a rest, .more first (fun none => absurd none nonempty) others⟩
      · rw [List.append_nil]
        exact ⟨List.cons_ne_nil a [], .last first⟩

theorem reads_commaTerminated (closing : Mark) (bound : Nat) :
    Reads s (commaTerminated item closing bound) (Items written true) := by
  induction bound generalizing s with
  | zero =>
      refine .isNext (Token.mark closing) (fun _ => .give .none) fun _ => ?_
      refine .andThen (items s) fun a ts s₁ first _ => .give ?_
      rw [List.append_nil]
      exact .last first
  | succ bound ih =>
      refine .isNext (Token.mark closing) (fun _ => .give .none) fun _ => ?_
      refine .andThen (items s) fun a ts s₁ first _ => ?_
      refine .accept (Token.mark .comma) (fun s₂ _ => ?_) fun _ => .give ?_
      · refine .andThen ih fun rest us s₃ others _ => .give ?_
        rw [List.append_nil]
        exact .more first (fun _ => rfl) others
      · rw [List.append_nil]
        exact .last first

end Items

variable {inner : Reader Expr} (inside : ∀ s, Reads s inner Whole)
include inside

theorem reads_arguments :
    Reads s (arguments inner) fun args ts =>
      ∃ us, Expr.allCanonical args = true ∧ Items Spells false args us ∧
        ts = us ++ [.mark .rParen] := by
  have closed {args : List Expr} {us : List Token} (items : Items Whole false args us)
      (s : Stream Token) : Reads s (expect .rParen .argumentsEnd >>= fun _ => pure args)
        fun args ts => ∃ vs, Expr.allCanonical args = true ∧ Items Spells false args vs ∧
          us ++ ts = vs ++ [.mark .rParen] := by
    refine .andThen (reads_expect _ _) fun _ last s₁ closed _ => .give ?_
    obtain ⟨canonical, spells⟩ := items_whole.mp items
    subst closed
    exact ⟨us, canonical, spells, rfl⟩
  refine .isNext (Token.mark .rParen) (fun _ => ?_) fun _ => ?_
  · exact closed .none s
  · refine .remaining fun bound => .andThen (reads_commaSeparated inside bound) ?_
    rintro args us s₁ ⟨-, items⟩ -
    exact closed items s₁

theorem reads_property : Reads s (property inner) (Property Whole) := by
  have behind {key : String} {t : Token} (next : s.items.head? = some t)
      (spells : ∀ {e ts}, Whole e ts → Property Whole (key, e) (t :: .mark .colon :: ts)) :
      Reads s (do
        advance
        expect .colon .propertyColon
        return (key, ← inner)) (Property Whole) := by
    refine .advance next fun s₁ _ => ?_
    refine .andThen (reads_expect _ _) fun _ colon s₂ marked _ => ?_
    refine .andThen (inside s₂) fun e ts s₃ whole _ => .give ?_
    subst marked
    rw [List.append_nil]
    exact spells whole
  refine .peek ?_
  split
  · next key next => exact behind next .name
  · next key next => exact behind next .text
  · exact .andThen (reads_failMissing _ fun _ _ => False) fun _ _ _ => False.elim

theorem reads_primary : Reads s (primary inner) (Fits 11) := by
  have literal {t : Token} (value : Literal) (pos : Position) (same : value.token = t) :
      Fits 11 (.literal value pos) [t] :=
    ⟨Nat.le_refl 11, rfl, same ▸ .literal value pos⟩
  refine .position fun pos => .peek ?_
  split
  · next x next => exact .advance next fun s₁ _ => .give (literal (.number x) pos rfl)
  · next x next => exact .advance next fun s₁ _ => .give (literal (.text x) pos rfl)
  · next next => exact .advance next fun s₁ _ => .give (literal (.boolean true) pos rfl)
  · next next => exact .advance next fun s₁ _ => .give (literal (.boolean false) pos rfl)
  · next next => exact .advance next fun s₁ _ => .give (literal .null pos rfl)
  · next next => exact .advance next fun s₁ _ => .give (literal .undefined pos rfl)
  · next word next =>
      exact .advance next fun s₁ _ => .give ⟨Nat.le_refl 11, rfl, .name word pos⟩
  · next next =>
      refine .advance next fun s₁ _ => .andThen (inside s₁) fun e ts s₂ whole _ => ?_
      refine .andThen (reads_expect _ _) fun _ last s₃ closed _ => .give ?_
      subst closed
      exact ⟨Nat.le_refl 11, whole.1, .grouping pos whole.2⟩
  · next next =>
      refine .advance next fun s₁ _ => .remaining fun bound => ?_
      refine .andThen (reads_commaTerminated inside _ bound) fun es ts s₂ items _ => ?_
      refine .andThen (reads_expect _ _) fun _ last s₃ closed _ => .give ?_
      obtain ⟨canonical, spells⟩ := items_whole.mp items
      subst closed
      exact ⟨Nat.le_refl 11, canonical, .array pos spells⟩
  · next next =>
      refine .advance next fun s₁ _ => .remaining fun bound => ?_
      refine .andThen (reads_commaTerminated (fun _ => reads_property inside) _ bound)
        fun es ts s₂ items _ => ?_
      refine .andThen (reads_expect _ _) fun _ last s₃ closed _ => .give ?_
      obtain ⟨canonical, spells⟩ := items_properties.mp items
      subst closed
      exact ⟨Nat.le_refl 11, canonical, .object pos spells⟩
  · exact reads_failMissing _ _

theorem reads_accessed : Reads s (accessed inner) (Fits 10) := by
  refine accessed_chain.reads (fun _ => reads_primary inside) (fun owner s => ?_) s
  refine .position fun pos => .accept (Token.mark .lParen) (fun s₁ _ => ?_) fun _ => ?_
  · refine .andThen (reads_arguments inside) ?_
    rintro args ts s₂ ⟨us, canonical, items, rfl⟩ -
    refine .give ?_
    rw [List.append_nil]
    exact .call owner.pos canonical items
  refine .accept (Token.mark .dot) (fun s₁ _ => ?_) fun _ => ?_
  · refine .andThen (reads_expectName _) fun property ts s₂ spelled _ => .give ?_
    subst spelled
    exact .member property pos
  refine .accept (Token.mark .lBracket) (fun s₁ _ => ?_) fun _ => .give rfl
  refine .andThen (inside s₁) fun key ts s₂ whole _ => ?_
  refine .andThen (reads_expect _ _) fun _ last s₃ closed _ => .give ?_
  subst closed
  exact .index pos whole.1 whole.2

omit inside in
theorem updateOp?_sign {t : Token} {op : UpdateOp} (found : updateOp? t = some op) :
    t = .mark op.sign := by
  unfold updateOp? at found
  split at found <;> cases found <;> rfl

omit inside in
theorem unaryOp?_sign {t : Token} {op : UnaryOp} (found : unaryOp? t = some op) :
    t = .mark op.sign := by
  unfold unaryOp? at found
  split at found <;> cases found <;> rfl

theorem reads_postfixUpdate : Reads s (postfixUpdate inner) (Fits 9) := by
  refine .andThen (reads_accessed inside) fun target ts s₁ fits _ => .position fun pos => .peek ?_
  split
  · next op found =>
      obtain ⟨t, next, signed⟩ := Option.bind_eq_some_iff.mp found
      refine .advance next fun s₂ _ => ?_
      cases updateOp?_sign signed
      cases assignable : target.isAssignable with
      | true =>
          refine .give ⟨Nat.le_refl 9, ?_, .updateBehind op pos fits.spells⟩
          rw [Expr.isCanonical, assignable, fits.canonical, Bool.and_true]
      | false => exact .andThen (.fail (G := fun _ _ => False) _) fun _ _ _ => False.elim
  · refine .give ?_
    rw [List.append_nil]
    exact fits.weaken (Nat.le_succ 9)

theorem reads_unary (bound : Nat) : Reads s (unary inner bound) (Fits 8) := by
  have postfixes (s : Stream Token) : Reads s (postfixUpdate inner) (Fits 8) := by
    intro e s' ended
    obtain ⟨ts, fits, past⟩ := reads_postfixUpdate inside ended
    exact ⟨ts, fits.weaken (Nat.le_succ 8), past⟩
  induction bound generalizing s with
  | zero => exact postfixes s
  | succ bound ih =>
      refine .position fun pos => .peek ?_
      split
      · next op found =>
          obtain ⟨t, next, signed⟩ := Option.bind_eq_some_iff.mp found
          refine .advance next fun s₁ _ => .andThen ih fun operand ts s₂ fits _ => .give ?_
          cases unaryOp?_sign signed
          rw [List.append_nil]
          refine ⟨Nat.le_refl 8, ?_, .unary op pos fits.spells⟩
          simp only [Expr.isCanonical, Bool.and_eq_true, decide_eq_true_eq]
          exact ⟨fits.tight, fits.canonical⟩
      · next op _ found =>
          obtain ⟨t, next, signed⟩ := Option.bind_eq_some_iff.mp found
          refine .advance next fun s₁ _ => .andThen ih fun target ts s₂ fits _ => ?_
          cases updateOp?_sign signed
          cases assignable : target.isAssignable with
          | true =>
              refine .give ?_
              rw [List.append_nil]
              refine ⟨Nat.le_refl 8, ?_, .updateBefore op pos fits.spells⟩
              rw [Expr.isCanonical, assignable, fits.canonical, Bool.and_true]
          | false => exact .andThen (.fail (G := fun _ _ => False) _) fun _ _ _ => False.elim
      · exact postfixes s

end Sound

section Complete

variable {s s' : Stream Token}

theorem expect_next {mark : Mark} (past : s.Past [.mark mark] s') (expected : Expected) :
    expect mark expected s = .ok () s' := by
  unfold expect
  rw [bind_ok (accept_next _ past)]
  rfl

section Items

variable {α β : Type} {view : α → β} {size : Nat} {item : Reader α}
  {written : α → List Token → Prop} {stops : α → List Token → Prop} {closing : Mark}
  (items : Accepts view size item written stops)
  (starts : ∀ a ts, written a ts → ∃ t rest, ts = t :: rest ∧ t ≠ .mark closing)
  (stopped : ∀ a t rest, t = .mark .comma ∨ t = .mark closing → stops a (t :: rest))
  (other : closing ≠ .comma)

theorem not_comma (other : closing ≠ .comma) (next : s.items.head? = some (.mark closing)) :
    s.items.head? ≠ some (.mark .comma) := by
  rw [next]
  exact fun same => other (Token.mark.inj (Option.some.inj same))

include starts

theorem items_start {trailing : Bool} {xs : List α} {ts : List Token}
    (spelled : Items written trailing xs ts) (nonempty : xs ≠ []) :
    ∃ t rest, ts = t :: rest ∧ t ≠ .mark closing := by
  cases spelled with
  | none => exact absurd rfl nonempty
  | last first => exact starts _ _ first
  | more first _ _ =>
      obtain ⟨t, rest, rfl, notClosing⟩ := starts _ _ first
      exact ⟨t, _, rfl, notClosing⟩

include items stopped other

theorem accepts_commaSeparated {xs : List α} {ts : List Token}
    (spelled : Items written false xs ts) (nonempty : xs ≠ []) {bound : Nat} {s s' : Stream Token}
    (enough : ts.length ≤ bound) (short : ts.length ≤ size) (past : s.Past ts s')
    (next : s'.items.head? = some (.mark closing)) :
    ∃ xs', commaSeparated item bound s = .ok xs' s' ∧ xs'.map view = xs.map view := by
  induction spelled generalizing bound s with
  | none => exact absurd rfl nonempty
  | @last a ts first =>
      obtain ⟨t, rest, rfl, -⟩ := starts _ _ first
      have stop : stops a s'.items := by
        rw [← List.cons_head?_tail next]
        exact stopped a _ _ (Or.inr rfl)
      obtain ⟨a', read, same⟩ := items short first past stop
      refine ⟨[a'], ?_, by rw [List.map_singleton, List.map_singleton, same]⟩
      cases bound with
      | zero => cases enough
      | succ bound =>
          unfold commaSeparated
          rw [bind_ok read, bind_ok (accept_other _ (not_comma other next))]
          rfl
  | @more a rest ts us first ends others ih =>
      obtain ⟨s₁, past₁, past₂⟩ := Stream.past_append.mp past
      obtain ⟨s₂, pastComma, past₃⟩ := Stream.past_cons.mp past₂
      simp only [List.length_append, List.length_cons] at short enough
      have stop : stops a s₁.items := by
        rw [past₂.items_eq]
        exact stopped a _ _ (Or.inl rfl)
      obtain ⟨a', read, same⟩ := items (by omega) first past₁ stop
      cases bound with
      | zero => omega
      | succ bound =>
          have behind : rest ≠ [] := fun none => Bool.false_ne_true (ends none)
          have enough : us.length ≤ bound := by omega
          obtain ⟨xs', readRest, sameRest⟩ := ih behind enough (by omega) past₃
          refine ⟨a' :: xs', ?_, by rw [List.map_cons, List.map_cons, same, sameRest]⟩
          unfold commaSeparated
          rw [bind_ok read, bind_ok (accept_next _ pastComma)]
          exact bind_ok readRest

theorem accepts_commaTerminated {xs : List α} {ts : List Token}
    (spelled : Items written true xs ts) {bound : Nat} {s s' : Stream Token}
    (enough : ts.length ≤ bound) (short : ts.length ≤ size) (past : s.Past ts s')
    (next : s'.items.head? = some (.mark closing)) :
    ∃ xs', commaTerminated item closing bound s = .ok xs' s' ∧ xs'.map view = xs.map view := by
  induction spelled generalizing bound s with
  | none =>
      cases past
      refine ⟨[], ?_, rfl⟩
      cases bound <;>
      · unfold commaTerminated
        rw [bind_ok (isNext_apply _ _), decide_eq_true next]
        rfl
  | @last a ts first =>
      obtain ⟨t, rest, rfl, notClosing⟩ := starts _ _ first
      have stop : stops a s'.items := by
        rw [← List.cons_head?_tail next]
        exact stopped a _ _ (Or.inr rfl)
      have goesOn : s.items.head? ≠ some (.mark closing) := by
        rw [past.head?]
        exact fun same => notClosing (Option.some.inj same)
      obtain ⟨a', read, same⟩ := items short first past stop
      refine ⟨[a'], ?_, by rw [List.map_singleton, List.map_singleton, same]⟩
      cases bound with
      | zero => cases enough
      | succ bound =>
          unfold commaTerminated
          rw [bind_ok (isNext_apply _ s), decide_eq_false goesOn]
          change (item >>= fun first => _) s = _
          rw [bind_ok read, bind_ok (accept_other _ (not_comma other next))]
          rfl
  | @more a rest ts us first _ others ih =>
      obtain ⟨t, ts, rfl, notClosing⟩ := starts _ _ first
      obtain ⟨s₁, past₁, past₂⟩ := Stream.past_append.mp past
      obtain ⟨s₂, pastComma, past₃⟩ := Stream.past_cons.mp past₂
      simp only [List.length_append, List.length_cons] at short enough
      have stop : stops a s₁.items := by
        rw [past₂.items_eq]
        exact stopped a _ _ (Or.inl rfl)
      have goesOn : s.items.head? ≠ some (.mark closing) := by
        rw [past₁.head?]
        exact fun same => notClosing (Option.some.inj same)
      obtain ⟨a', read, same⟩ := items (by rw [List.length_cons]; omega) first past₁ stop
      cases bound with
      | zero => omega
      | succ bound =>
          have enough : us.length ≤ bound := by omega
          obtain ⟨xs', readRest, sameRest⟩ := ih enough (by omega) past₃
          refine ⟨a' :: xs', ?_, by rw [List.map_cons, List.map_cons, same, sameRest]⟩
          unfold commaTerminated
          rw [bind_ok (isNext_apply _ s), decide_eq_false goesOn]
          change (item >>= fun first => _) s = _
          rw [bind_ok read, bind_ok (accept_next _ pastComma)]
          exact bind_ok readRest

end Items

theorem stops_behindItem {closing : Mark} (closes : closing ∈ [Mark.rParen, .rBracket, .rBrace])
    (e : Expr) (t : Token) (rest : List Token) (ending : t = .mark .comma ∨ t = .mark closing) :
    Stops 0 e (t :: rest) := by
  apply stops_of_none
  simp only [List.mem_cons, List.not_mem_nil, or_false] at closes
  rcases ending with rfl | rfl
  · rfl
  · rcases closes with rfl | rfl | rfl <;> rfl

theorem Whole.starts {closing : Mark} (closes : closing ∈ [Mark.rParen, .rBracket, .rBrace])
    (e : Expr) (ts : List Token) (whole : Whole e ts) :
    ∃ t rest, ts = t :: rest ∧ t ≠ .mark closing := by
  obtain ⟨t, rest, rfl, starts⟩ := Spells.starts e whole.2
  simp only [List.mem_cons, List.not_mem_nil, or_false] at closes
  refine ⟨t, rest, rfl, ?_⟩
  rintro rfl
  rcases closes with rfl | rfl | rfl <;> exact absurd starts (by decide)

theorem Property.starts (e : String × Expr) (ts : List Token) (written : Property Whole e ts) :
    ∃ t rest, ts = t :: rest ∧ t ≠ .mark .rBrace := by
  cases written with
  | name => exact ⟨_, _, rfl, nofun⟩
  | text => exact ⟨_, _, rfl, nofun⟩

variable {size : Nat} {inner : Reader Expr}
  (inside : Accepts Expr.bare size inner Whole (Stops 0))
include inside

theorem accepts_arguments {args : List Expr} {ts : List Token}
    (canonical : Expr.allCanonical args = true) (spelled : Items Spells false args ts)
    (short : ts.length ≤ size) (past : s.Past (ts ++ [.mark .rParen]) s') :
    ∃ args', arguments inner s = .ok args' s' ∧ Expr.bareAll args' = Expr.bareAll args := by
  have items : Items Whole false args ts := items_whole.mpr ⟨canonical, spelled⟩
  obtain ⟨s₁, pastItems, last⟩ := Stream.past_append.mp past
  unfold arguments
  rw [bind_ok (isNext_apply _ s)]
  cases args with
  | nil =>
      cases items
      cases pastItems
      refine ⟨[], ?_, rfl⟩
      rw [last.head?, decide_eq_true rfl]
      exact bind_ok (expect_next last _)
  | cons e rest =>
      have starts := @Whole.starts .rParen (by decide)
      obtain ⟨t, others, rfl, notClosing⟩ := items_start starts items (List.cons_ne_nil e rest)
      have goesOn : s.items.head? ≠ some (.mark .rParen) := by
        rw [pastItems.head?]
        exact fun same => notClosing (Option.some.inj same)
      have enough : (t :: others).length ≤ s.ahead.length := by
        rw [pastItems.length_eq]
        exact Nat.le_add_right _ _
      obtain ⟨args', read, same⟩ := accepts_commaSeparated inside starts
        (stops_behindItem (by decide)) (by decide) items (List.cons_ne_nil e rest) enough short
        pastItems last.head?
      refine ⟨args', ?_, by rw [bareAll_eq, bareAll_eq, same]⟩
      rw [decide_eq_false goesOn]
      change (remaining >>= fun bound => commaSeparated inner bound >>= fun args => _) s = _
      rw [bind_ok (remaining_apply s), bind_ok read]
      exact bind_ok (expect_next last _)

theorem accepts_property :
    Accepts (fun e => (e.1, e.2.bare)) (size + 2) (property inner) (Property Whole)
      (fun e => Stops 0 e.2) := by
  intro e ts s s' short written past stop
  unfold property
  rw [bind_ok (peek?_apply s)]
  cases written with
  | @name key e ts whole | @text key e ts whole =>
      obtain ⟨s₁, pastKey, past₁⟩ := Stream.past_cons.mp past
      obtain ⟨s₂, pastColon, past₂⟩ := Stream.past_cons.mp past₁
      rw [List.length_cons, List.length_cons] at short
      obtain ⟨e', read, same⟩ := inside (by omega) whole past₂ stop
      refine ⟨(key, e'), ?_, congrArg (Prod.mk key) same⟩
      rw [pastKey.head?]
      change (advance >>= fun _ => expect .colon .propertyColon >>= fun _ => inner >>= fun e =>
        pure (key, e)) s = _
      rw [bind_ok (advance_apply pastKey), bind_ok (expect_next pastColon _), bind_ok read]
      rfl

theorem accepts_primary :
    Accepts Expr.bare (size + 1) (primary inner) (Fits 11) fun _ _ => True := by
  rintro e ts s s' short ⟨tight, canonical, spells⟩ past -
  obtain ⟨pos, placed⟩ := position_apply (M := Mistake) s
  unfold primary
  rw [bind_ok placed, bind_ok (peek?_apply s)]
  cases spells with
  | literal value p =>
      refine ⟨.literal value pos, ?_, rfl⟩
      rw [past.head?]
      cases value with
      | boolean b => cases b <;> exact bind_ok (advance_apply past)
      | number x | text t | null | undefined => exact bind_ok (advance_apply past)
  | name word p =>
      refine ⟨.name word pos, ?_, rfl⟩
      rw [past.head?]
      exact bind_ok (advance_apply past)
  | @grouping e ts p written =>
      obtain ⟨s₁, pastBracket, past₁⟩ := Stream.past_cons.mp past
      obtain ⟨s₂, pastInner, last⟩ := Stream.past_append.mp past₁
      rw [List.length_cons, List.length_append] at short
      have stop : Stops 0 e s₂.items := by
        rw [last.items_eq]
        exact stops_of_none rfl
      have whole : Whole e ts := ⟨canonical, written⟩
      obtain ⟨inner', read, same⟩ := inside (by omega) whole pastInner stop
      refine ⟨.grouping inner' pos, ?_, by rw [Expr.bare, Expr.bare, same]⟩
      rw [pastBracket.head?]
      dsimp only
      rw [bind_ok (advance_apply pastBracket), bind_ok read, bind_ok (expect_next last _)]
      rfl
  | @array elements ts p spelled =>
      obtain ⟨s₁, pastBracket, past₁⟩ := Stream.past_cons.mp past
      obtain ⟨s₂, pastItems, last⟩ := Stream.past_append.mp past₁
      rw [List.length_cons, List.length_append] at short
      have enough : ts.length ≤ s₁.ahead.length := by
        rw [pastItems.length_eq]
        exact Nat.le_add_right _ _
      obtain ⟨elements', read, same⟩ := accepts_commaTerminated inside
        (Whole.starts (by decide)) (stops_behindItem (by decide)) (by decide)
        (items_whole.mpr ⟨canonical, spelled⟩) enough (by omega) pastItems last.head?
      refine ⟨.array elements' pos, ?_, by rw [Expr.bare, Expr.bare, bareAll_eq, bareAll_eq, same]⟩
      rw [pastBracket.head?]
      dsimp only
      rw [bind_ok (advance_apply pastBracket), bind_ok (remaining_apply s₁), bind_ok read,
        bind_ok (expect_next last _)]
      rfl
  | @object properties ts p spelled =>
      obtain ⟨s₁, pastBracket, past₁⟩ := Stream.past_cons.mp past
      obtain ⟨s₂, pastItems, last⟩ := Stream.past_append.mp past₁
      rw [List.length_cons, List.length_append] at short
      have enough : ts.length ≤ s₁.ahead.length := by
        rw [pastItems.length_eq]
        exact Nat.le_add_right _ _
      obtain ⟨properties', read, same⟩ := accepts_commaTerminated (accepts_property inside)
        Property.starts (fun e => stops_behindItem (by decide) e.2) (by decide)
        (items_properties.mpr ⟨canonical, spelled⟩) enough (by omega) pastItems last.head?
      refine ⟨.object properties' pos, ?_, ?_⟩
      · rw [pastBracket.head?]
        dsimp only
        rw [bind_ok (advance_apply pastBracket), bind_ok (remaining_apply s₁), bind_ok read,
          bind_ok (expect_next last _)]
        rfl
      · rw [Expr.bare, Expr.bare, bareProperties_eq, bareProperties_eq, same]
  | binary => exact absurd tight (not_tight_binary (by decide))
  | logical => exact absurd tight (not_tight_logical (by decide))
  | unary | updateBefore | updateBehind | conditional | assignment | call | member | index =>
      exact absurd tight (by simp [Expr.rank])

omit inside in
theorem expectName_next {word : String} (past : s.Past [.name word] s') (expected : Expected) :
    expectName expected s = .ok word s' := by
  unfold expectName
  rw [bind_ok (peek?_apply s), past.head?]
  exact bind_ok (advance_apply past)

/-- What is tight enough to be called does not end in an update, so it does not matter here that
nothing is called behind one. -/
theorem accepts_accessed :
    Accepts Expr.bare (size + 1) (accessed inner) (Fits 10)
      fun _ rest => ∀ r, continuation? false rest = some r → r < 10 := by
  refine accessed_chain.accepts (accepts_primary inside) (fun _ _ => trivial) ?_ ?_
    fun _ => trivial
  · intro owner owner' us b s s' short accessed past _ same
    obtain ⟨pos, placed⟩ := position_apply (M := Mistake) s
    unfold access?
    rw [bind_ok placed]
    cases accessed with
    | @call args ts p canonical spelled =>
        obtain ⟨s₁, pastBracket, past₁⟩ := Stream.past_cons.mp past
        rw [List.length_cons, List.length_append] at short
        obtain ⟨args', read, sameArgs⟩ :=
          accepts_arguments inside canonical spelled (by omega) past₁
        refine ⟨.call owner' args' owner'.pos, ?_, by rw [Expr.bare, Expr.bare, same, sameArgs]⟩
        rw [bind_ok (accept_next _ pastBracket)]
        exact bind_ok read
    | member property p =>
        obtain ⟨s₁, pastDot, past₁⟩ := Stream.past_cons.mp past
        have noCall : s.items.head? ≠ some (.mark .lParen) := by
          rw [pastDot.head?]
          exact nofun
        refine ⟨.member owner' property pos, ?_, by rw [Expr.bare, Expr.bare, same]⟩
        rw [bind_ok (accept_other _ noCall)]
        change (accept (.mark .dot) >>= fun dotted => _) s = _
        rw [bind_ok (accept_next _ pastDot)]
        exact bind_ok (expectName_next past₁ _)
    | @index key ts p canonical written =>
        obtain ⟨s₁, pastBracket, past₁⟩ := Stream.past_cons.mp past
        obtain ⟨s₂, pastKey, last⟩ := Stream.past_append.mp past₁
        rw [List.length_cons, List.length_append] at short
        have noCall : s.items.head? ≠ some (.mark .lParen) := by
          rw [pastBracket.head?]
          exact nofun
        have noMember : s.items.head? ≠ some (.mark .dot) := by
          rw [pastBracket.head?]
          exact nofun
        have stop : Stops 0 key s₂.items := by
          rw [last.items_eq]
          exact stops_of_none rfl
        obtain ⟨key', read, sameKey⟩ := inside (by omega) ⟨canonical, written⟩ pastKey stop
        refine ⟨.index owner' key' pos, ?_, by rw [Expr.bare, Expr.bare, same, sameKey]⟩
        rw [bind_ok (accept_other _ noCall)]
        change (accept (.mark .dot) >>= fun dotted => _) s = _
        rw [bind_ok (accept_other _ noMember)]
        change (accept (.mark .lBracket) >>= fun indexed => _) s = _
        rw [bind_ok (accept_next _ pastBracket)]
        change (inner >>= fun key => _) s₁ = _
        rw [bind_ok read, bind_ok (expect_next last _)]
        rfl
  · intro owner owner' s _ stop
    have noAccess {mark : Mark} (opens : mark.continues? false = some 10) :
        s.items.head? ≠ some (.mark mark) := by
      intro next
      rw [← List.cons_head?_tail next] at stop
      exact absurd (stop 10 opens) (by decide)
    obtain ⟨pos, placed⟩ := position_apply (M := Mistake) s
    unfold access?
    rw [bind_ok placed, bind_ok (accept_other _ (noAccess rfl))]
    change (accept (.mark .dot) >>= fun dotted => _) s = _
    rw [bind_ok (accept_other _ (noAccess rfl))]
    change (accept (.mark .lBracket) >>= fun indexed => _) s = _
    rw [bind_ok (accept_other _ (noAccess rfl))]
    rfl

omit inside in
theorem updateOp?_of_sign (op : UpdateOp) : updateOp? (.mark op.sign) = some op := by
  cases op <;> rfl

omit inside in
theorem unaryOp?_of_sign (op : UnaryOp) : unaryOp? (.mark op.sign) = some op := by
  cases op <;> rfl

theorem accepts_postfixUpdate :
    Accepts Expr.bare (size + 1) (postfixUpdate inner) (Fits 9) (Stops 9) := by
  intro e ts s s' short fits past stop
  unfold postfixUpdate
  rcases Nat.lt_or_eq_of_le fits.tight with tighter | level
  · have behind : ∀ r, continuation? false s'.items = some r → r < 9 := by
      rw [← Expr.endsInUpdate_of_tight tighter]
      exact stop
    obtain ⟨e', read, same⟩ := accepts_accessed inside short
      ⟨tighter, fits.canonical, fits.spells⟩ past
      fun r goesOn => Nat.lt_succ_of_lt (behind r goesOn)
    obtain ⟨pos, placed⟩ := position_apply (M := Mistake) s'
    have none : s'.items.head?.bind updateOp? = none := by
      cases found : s'.items.head?.bind updateOp? with
      | none => rfl
      | some op =>
          obtain ⟨t, next, signed⟩ := Option.bind_eq_some_iff.mp found
          cases updateOp?_sign signed
          rw [← List.cons_head?_tail next] at behind
          cases op <;> exact absurd (behind 9 rfl) (by decide)
    refine ⟨e', ?_, same⟩
    rw [bind_ok read, bind_ok placed, bind_ok (peek?_apply s'), none]
    rfl
  · obtain ⟨tight, canonical, spells⟩ := fits
    cases spells with
    | @updateBehind target ts op p written =>
        simp only [Expr.isCanonical, Bool.and_eq_true] at canonical
        obtain ⟨assignable, targetCanonical⟩ := canonical
        obtain ⟨s₁, pastTarget, last⟩ := Stream.past_append.mp past
        rw [List.length_append] at short
        have stop : ∀ r, continuation? false s₁.items = some r → r < 10 := by
          rw [last.items_eq]
          cases op <;> rintro r ⟨⟩ <;> decide
        obtain ⟨target', read, same⟩ := accepts_accessed inside (by omega)
          ⟨Expr.rank_of_isAssignable assignable, targetCanonical, written⟩ pastTarget stop
        obtain ⟨pos, placed⟩ := position_apply (M := Mistake) s₁
        refine ⟨.update op false target' pos, ?_, by rw [Expr.bare, Expr.bare, same]⟩
        rw [bind_ok read, bind_ok placed, bind_ok (peek?_apply s₁), last.head?, Option.bind_some,
          updateOp?_of_sign]
        dsimp only
        rw [bind_ok (advance_apply last), Expr.isAssignable_eq_of_bare same, assignable]
        rfl
    | binary => exact absurd tight (not_tight_binary (by decide))
    | logical => exact absurd tight (not_tight_logical (by decide))
    | literal | name | array | object | unary | updateBefore | conditional | assignment | call
    | member | index | grouping => cases level

theorem rejects_postfixUpdate :
    Rejects (size + 1) (postfixUpdate inner) (Fits 9) MissesUpdated .invalidUpdateTarget := by
  rintro e ts s s' short fits past ⟨plain, missed, op, next⟩
  have tight : 10 ≤ e.rank := Expr.tight_of_not_update fits.tight plain
  have behind : ∀ r, continuation? false s'.items = some r → r < 10 := by
    rw [← List.cons_head?_tail next]
    cases op <;> rintro r ⟨⟩ <;> decide
  obtain ⟨e', read, same⟩ :=
    accepts_accessed inside short ⟨tight, fits.canonical, fits.spells⟩ past behind
  have noTarget : e'.isAssignable = false := by
    rw [Expr.isAssignable_eq_of_bare same, ← Expr.updated_of_tight tight]
    exact missed
  obtain ⟨s₁, pastSign⟩ := Stream.past_of_head? next
  obtain ⟨pos, placed⟩ := position_apply (M := Mistake) s'
  obtain ⟨place, failed⟩ := fail_apply (α := PUnit) Mistake.invalidUpdateTarget s₁
  refine ⟨place, s₁, ?_⟩
  unfold postfixUpdate
  rw [bind_ok read, bind_ok placed, bind_ok (peek?_apply s'), next, Option.bind_some,
    updateOp?_of_sign]
  dsimp only
  rw [bind_ok (advance_apply pastSign), noTarget]
  exact bind_error failed

omit inside in
theorem unaryOp?_of_startsOperand {t : Token} (starts : t.startsOperand = true) :
    unaryOp? t = none := by
  unfold unaryOp?
  split
  · cases starts
  · cases starts
  · cases starts
  · rfl

omit inside in
theorem updateOp?_of_startsOperand {t : Token} (starts : t.startsOperand = true) :
    updateOp? t = none := by
  unfold updateOp?
  split
  · cases starts
  · cases starts
  · rfl

theorem accepts_unary {bound : Nat} {e : Expr} {ts : List Token} {s s' : Stream Token}
    (enough : ts.length ≤ bound) (short : ts.length ≤ size + 1) (fits : Fits 8 e ts)
    (past : s.Past ts s') (stop : Stops 8 e s'.items) :
    ∃ e', unary inner bound s = .ok e' s' ∧ e'.bare = e.bare := by
  induction bound generalizing e ts s with
  | zero => exact absurd (List.length_eq_zero_iff.mp (Nat.le_zero.mp enough)) fits.nonempty
  | succ bound ih =>
      obtain ⟨pos, placed⟩ := position_apply (M := Mistake) s
      unfold unary
      rw [bind_ok placed, bind_ok (peek?_apply s)]
      rcases Nat.lt_or_eq_of_le fits.tight with tighter | level
      · have fits : Fits 9 e ts := ⟨tighter, fits.canonical, fits.spells⟩
        obtain ⟨t, rest, rfl, starts⟩ := Fits.startsOperand e fits
        rw [past.head?, Option.bind_some, Option.bind_some, unaryOp?_of_startsOperand starts,
          updateOp?_of_startsOperand starts]
        exact accepts_postfixUpdate inside short fits past (stop.weaken (Nat.le_succ 8))
      · obtain ⟨tight, canonical, spells⟩ := fits
        cases spells with
        | @unary operand ts op p written =>
            simp only [Expr.isCanonical, Bool.and_eq_true, decide_eq_true_eq] at canonical
            obtain ⟨s₁, pastSign, past₁⟩ := Stream.past_cons.mp past
            rw [List.length_cons] at enough short
            obtain ⟨operand', read, same⟩ := ih (by omega) (by omega)
              ⟨canonical.1, canonical.2, written⟩ past₁ (stop.congr rfl)
            refine ⟨.unary op operand' pos, ?_, by rw [Expr.bare, Expr.bare, same]⟩
            rw [past.head?, Option.bind_some, Option.bind_some, unaryOp?_of_sign]
            dsimp only
            rw [bind_ok (advance_apply pastSign), bind_ok read]
            rfl
        | @updateBefore target ts op p written =>
            simp only [Expr.isCanonical, Bool.and_eq_true] at canonical
            obtain ⟨assignable, targetCanonical⟩ := canonical
            have targetTight := Expr.rank_of_isAssignable assignable
            obtain ⟨s₁, pastSign, past₁⟩ := Stream.past_cons.mp past
            rw [List.length_cons] at enough short
            obtain ⟨target', read, same⟩ := ih (by omega) (by omega)
              ⟨Nat.le_trans (by decide) targetTight, targetCanonical, written⟩ past₁
              (stop.congr (Expr.endsInUpdate_of_tight targetTight))
            have noUnary : unaryOp? (.mark op.sign) = none := by
              cases op <;> rfl
            refine ⟨.update op true target' pos, ?_, by rw [Expr.bare, Expr.bare, same]⟩
            rw [past.head?, Option.bind_some, Option.bind_some, noUnary, updateOp?_of_sign]
            dsimp only
            rw [bind_ok (advance_apply pastSign), bind_ok read,
              Expr.isAssignable_eq_of_bare same, assignable]
            rfl
        | binary => exact absurd tight (not_tight_binary (by decide))
        | logical => exact absurd tight (not_tight_logical (by decide))
        | literal | name | array | object | updateBehind | conditional | assignment | call
        | member | index | grouping => cases level

theorem rejects_unary {bound : Nat} {e : Expr} {ts : List Token} {s s' : Stream Token}
    (enough : ts.length < bound) (short : ts.length ≤ size + 1) (fits : Fits 8 e ts)
    (past : s.Past ts s') (misses : MissesUpdated e s'.items) :
    ∃ place s'', unary inner bound s = .error ⟨.invalidUpdateTarget, place⟩ s'' := by
  induction bound generalizing e ts s with
  | zero => cases enough
  | succ bound ih =>
      obtain ⟨pos, placed⟩ := position_apply (M := Mistake) s
      unfold unary
      rw [bind_ok placed, bind_ok (peek?_apply s)]
      rcases Nat.lt_or_eq_of_le fits.tight with tighter | level
      · have fits : Fits 9 e ts := ⟨tighter, fits.canonical, fits.spells⟩
        obtain ⟨t, rest, rfl, starts⟩ := Fits.startsOperand e fits
        rw [past.head?, Option.bind_some, Option.bind_some, unaryOp?_of_startsOperand starts,
          updateOp?_of_startsOperand starts]
        exact rejects_postfixUpdate inside short fits past misses
      · obtain ⟨tight, canonical, spells⟩ := fits
        cases spells with
        | @unary operand ts op p written =>
            simp only [Expr.isCanonical, Bool.and_eq_true, decide_eq_true_eq] at canonical
            obtain ⟨s₁, pastSign, past₁⟩ := Stream.past_cons.mp past
            rw [List.length_cons] at enough short
            obtain ⟨place, s'', failed⟩ := ih (by omega) (by omega)
              ⟨canonical.1, canonical.2, written⟩ past₁ misses
            refine ⟨place, s'', ?_⟩
            rw [past.head?, Option.bind_some, Option.bind_some, unaryOp?_of_sign]
            dsimp only
            rw [bind_ok (advance_apply pastSign)]
            exact bind_error failed
        | @updateBefore target ts op p written =>
            -- the sign behind is read first, so that there is no target for the one in front
            simp only [Expr.isCanonical, Bool.and_eq_true] at canonical
            obtain ⟨assignable, targetCanonical⟩ := canonical
            obtain ⟨-, -, op', next⟩ := misses
            obtain ⟨s₁, pastSign, past₁⟩ := Stream.past_cons.mp past
            obtain ⟨s₂, pastOther⟩ := Stream.past_of_head? next
            rw [List.length_cons] at enough short
            have fits : Fits 8 (.update op' false target p) (ts ++ [.mark op'.sign]) := by
              refine ⟨by simp [Expr.rank], ?_, .updateBehind op' p written⟩
              rw [Expr.isCanonical, assignable, targetCanonical, Bool.and_true]
            have length : (ts ++ [Token.mark op'.sign]).length = ts.length + 1 :=
              List.length_append
            have within : (ts ++ [Token.mark op'.sign]).length ≤ bound := by omega
            have stop : Stops 8 (.update op' false target p) s₂.items :=
              fun r goesOn => continuation?_updated goesOn
            obtain ⟨updated, read, same⟩ :=
              accepts_unary inside within (by omega) fits (past₁.append pastOther) stop
            have noTarget : updated.isAssignable = false := Expr.isAssignable_eq_of_bare same
            have noUnary : unaryOp? (.mark op.sign) = none := by
              cases op <;> rfl
            obtain ⟨place, failed⟩ := fail_apply (α := PUnit) Mistake.invalidUpdateTarget s₂
            refine ⟨place, s₂, ?_⟩
            rw [past.head?, Option.bind_some, Option.bind_some, noUnary, updateOp?_of_sign]
            dsimp only
            rw [bind_ok (advance_apply pastSign), bind_ok read, noTarget]
            exact bind_error failed
        | binary => exact absurd tight (not_tight_binary (by decide))
        | logical => exact absurd tight (not_tight_logical (by decide))
        | literal | name | array | object | updateBehind | conditional | assignment | call
        | member | index | grouping => cases level

end Complete

/-! ### The ranks -/

/-- The reader reads the operators of the rank, and nothing where there is none. -/
structure ReadsOperators (rank : Nat) (operator? : Reader (Option (Expr → Expr → Expr))) :
    Prop where
  sound : ∀ s, Reads s operator? (Found (Operator rank))
  complete : ∀ {join sign s s'}, Operator rank join sign → s.Past sign s' →
    ∃ join', operator? s = .ok (some join') s' ∧ ∀ l l' r r', Expr.bare l' = Expr.bare l →
      Expr.bare r' = Expr.bare r → (join' l' r').bare = (join l r).bare
  ends : ∀ {e s}, Stops rank e s.items → operator? s = .ok none s

section Operators

variable {rank : Nat}

theorem binaryOp?_reads {ofToken : Token → Option BinaryOp} (loose : 4 ≤ rank)
    (spells : ∀ t op, ofToken t = some op → op.rank = rank ∧ t = .mark op.sign)
    (single : ∀ op : BinaryOp, op.rank = rank → ofToken (.mark op.sign) = some op) :
    ReadsOperators rank (binaryOp? ofToken) where
  sound s := by
    refine .position fun pos => .peek ?_
    split
    · next op found =>
        obtain ⟨t, next, spelled⟩ := Option.bind_eq_some_iff.mp found
        obtain ⟨level, rfl⟩ := spells t op spelled
        exact .advance next fun s₁ _ => .give (.binary pos level)
    · exact .give rfl
  complete := by
    intro join sign s s' operator past
    cases operator with
    | @binary op p level =>
        obtain ⟨pos, placed⟩ := position_apply (M := Mistake) s
        refine ⟨fun left right => .binary op left right pos, ?_, fun l l' r r' left right => ?_⟩
        · unfold binaryOp?
          rw [bind_ok placed, bind_ok (peek?_apply s), past.head?, Option.bind_some,
            single op level]
          exact bind_ok (advance_apply past)
        · rw [Expr.bare, Expr.bare, left, right]
    | @logical op p level =>
        have le := op.rank_le
        omega
  ends := by
    intro e s stop
    obtain ⟨pos, placed⟩ := position_apply (M := Mistake) s
    have none : s.items.head?.bind ofToken = none := by
      cases found : s.items.head?.bind ofToken with
      | none => rfl
      | some op =>
          obtain ⟨t, next, spelled⟩ := Option.bind_eq_some_iff.mp found
          obtain ⟨level, rfl⟩ := spells t op spelled
          rw [← List.cons_head?_tail next] at stop
          exact absurd stop (Operator.not_stops (.binary {} level) _)
    unfold binaryOp?
    rw [bind_ok placed, bind_ok (peek?_apply s), none]
    rfl

theorem logicalOp?_reads (op : LogicalOp) :
    ReadsOperators op.rank (logicalOp? op.sign op) where
  sound s := by
    refine .position fun pos => .accept (Token.mark op.sign) (fun s₁ _ => ?_) fun _ => .give rfl
    exact .give (.logical pos rfl)
  complete := by
    intro join sign s s' operator past
    cases operator with
    | @binary other p level =>
        have le := op.rank_le
        have le' := other.le_rank
        omega
    | @logical other p level =>
        have same : other = op := by
          cases other <;> cases op <;> first | rfl | cases level
        subst same
        obtain ⟨pos, placed⟩ := position_apply (M := Mistake) s
        refine ⟨fun left right => .logical other left right pos, ?_, fun l l' r r' left right => ?_⟩
        · unfold logicalOp?
          rw [bind_ok placed, bind_ok (accept_next _ past)]
          rfl
        · rw [Expr.bare, Expr.bare, left, right]
  ends := by
    intro e s stop
    obtain ⟨pos, placed⟩ := position_apply (M := Mistake) s
    have other : s.items.head? ≠ some (.mark op.sign) := by
      intro next
      rw [← List.cons_head?_tail next] at stop
      exact Operator.not_stops (.logical {} rfl) _ stop
    unfold logicalOp?
    rw [bind_ok placed, bind_ok (accept_other _ other)]
    rfl

theorem factorOp?_reads : ReadsOperators 7 (binaryOp? factorOp?) := by
  refine binaryOp?_reads (by decide) (fun t op found => ?_) fun op level => ?_
  · unfold factorOp? at found
    split at found <;> cases found <;> decide
  · cases op <;> cases level <;> rfl

theorem termOp?_reads : ReadsOperators 6 (binaryOp? termOp?) := by
  refine binaryOp?_reads (by decide) (fun t op found => ?_) fun op level => ?_
  · unfold termOp? at found
    split at found <;> cases found <;> decide
  · cases op <;> cases level <;> rfl

theorem comparisonOp?_reads : ReadsOperators 5 (binaryOp? comparisonOp?) := by
  refine binaryOp?_reads (by decide) (fun t op found => ?_) fun op level => ?_
  · unfold comparisonOp? at found
    split at found <;> cases found <;> decide
  · cases op <;> cases level <;> rfl

theorem equalityOp?_reads : ReadsOperators 4 (binaryOp? equalityOp?) := by
  refine binaryOp?_reads (by decide) (fun t op found => ?_) fun op level => ?_
  · unfold equalityOp? at found
    split at found <;> cases found <;> decide
  · cases op <;> cases level <;> rfl

end Operators

/-- The reader reads the expressions of the rank with at most so many tokens, and no others; an
update behind them that finds no target is refused. -/
structure ReadsRank (size rank : Nat) (r : Reader Expr) : Prop where
  sound : ∀ s, Reads s r (Fits rank)
  complete : Accepts Expr.bare size r (Fits rank) (Stops rank)
  refuses : Rejects size r (Fits rank) MissesUpdated .invalidUpdateTarget

section Ranks

variable {size rank : Nat} {operator? : Reader (Option (Expr → Expr → Expr))}
  {operand inner : Reader Expr}

theorem ReadsOperators.readsRank (operators : ReadsOperators rank operator?) (low : 2 ≤ rank)
    (high : rank ≤ 7) (operands : ReadsRank size (rank + 1) operand) :
    ReadsRank size rank (infixLeft operator? operand) where
  sound s := reads_infixLeft (fits_chain low high) operators.sound operands.sound s
  complete := accepts_infixLeft (fits_chain low high) operators.complete operands.complete
    Operator.stops Operator.stops_right operators.ends fun stop => stop.weaken (Nat.le_succ rank)
  refuses := rejects_at_operand (fits_chain low high) operators.complete operands.complete
    Operator.stops Operator.stops_right operands.refuses Operator.misses_right

variable (inside : ReadsRank size 0 inner)
include inside

theorem ReadsRank.reads_whole (s : Stream Token) : Reads s inner Whole :=
  fits_zero ▸ inside.sound s

theorem ReadsRank.accepts_whole : Accepts Expr.bare size inner Whole (Stops 0) :=
  fits_zero ▸ inside.complete

theorem unary_readsRank : ReadsRank (size + 1) 8 (do unary inner (← remaining)) where
  sound s := .remaining fun bound => reads_unary inside.reads_whole bound
  complete := by
    intro e ts s s' short fits past stop
    rw [bind_ok (remaining_apply s)]
    refine accepts_unary inside.accepts_whole ?_ short fits past stop
    rw [past.length_eq]
    exact Nat.le_add_right _ _
  refuses := by
    intro e ts s s' short fits past misses
    have ⟨_, _, op, next⟩ := misses
    obtain ⟨s'', pastSign⟩ := Stream.past_of_head? next
    rw [bind_ok (remaining_apply s)]
    refine rejects_unary inside.accepts_whole ?_ short fits past misses
    rw [past.length_eq, pastSign.length_eq, List.length_singleton]
    omega

theorem disjunction_readsRank : ReadsRank (size + 1) 2 (disjunction inner) :=
  (logicalOp?_reads .or).readsRank (by decide) (by decide) <|
    (logicalOp?_reads .and).readsRank (by decide) (by decide) <|
    equalityOp?_reads.readsRank (by decide) (by decide) <|
    comparisonOp?_reads.readsRank (by decide) (by decide) <|
    termOp?_reads.readsRank (by decide) (by decide) <|
    factorOp?_reads.readsRank (by decide) (by decide) (unary_readsRank inside)

theorem reads_ternary (s : Stream Token) : Reads s (ternary inner) (Fits 1) := by
  refine .andThen ((disjunction_readsRank inside).sound s) fun test ts s₁ fits _ => ?_
  refine .position fun pos => .accept (Token.mark .question) (fun s₂ _ => ?_) fun _ => .give ?_
  · refine .andThen (inside.reads_whole s₂) fun onTrue us s₃ whole _ => ?_
    refine .andThen (reads_expect _ _) fun _ colon s₄ marked _ => ?_
    refine .andThen (inside.reads_whole s₄) fun onFalse vs s₅ whole' _ => .give ?_
    subst marked
    rw [List.append_nil]
    refine ⟨Nat.le_refl 1, ?_, .conditional pos fits.spells whole.2 whole'.2⟩
    simp only [Expr.isCanonical, Bool.and_eq_true, decide_eq_true_eq]
    exact ⟨fits.tight, fits.canonical, whole.1, whole'.1⟩
  · rw [List.append_nil]
    exact fits.weaken (Nat.le_succ 1)

theorem accepts_test : Accepts Expr.bare (size + 1) (ternary inner) (Fits 2) (Stops 1) := by
  intro e ts s s' short fits past stop
  obtain ⟨e', read, same⟩ :=
    (disjunction_readsRank inside).complete short fits past (stop.weaken (Nat.le_succ 1))
  obtain ⟨pos, placed⟩ := position_apply (M := Mistake) s'
  have noBranch : s'.items.head? ≠ some (.mark .question) := by
    intro next
    rw [← List.cons_head?_tail next] at stop
    exact absurd (stop 1 rfl) (by decide)
  refine ⟨e', ?_, same⟩
  unfold ternary
  rw [bind_ok read, bind_ok placed, bind_ok (accept_other _ noBranch)]
  rfl

theorem ternary_apply {test onTrue onFalse : Expr} {p : Position} {ts : List Token}
    {s s' : Stream Token} (short : ts.length ≤ size + 1)
    (canonical : (Expr.conditional test onTrue onFalse p).isCanonical = true)
    (spells : Spells (.conditional test onTrue onFalse p) ts) (past : s.Past ts s') :
    ∃ (us : List Token) (s₁ : Stream Token) (join : Expr → Expr),
      us.length ≤ size ∧ Whole onFalse us ∧ s₁.Past us s' ∧
      ternary inner s = (do return join (← inner)) s₁ ∧ ∀ e : Expr, e.bare = onFalse.bare →
        (join e).bare = (Expr.conditional test onTrue onFalse p).bare := by
  simp only [Expr.isCanonical, Bool.and_eq_true, decide_eq_true_eq] at canonical
  obtain ⟨testTight, testCanonical, canonicalTrue, canonicalFalse⟩ := canonical
  cases spells with
  | @conditional _ _ _ ts us vs _ writtenTest writtenTrue writtenFalse =>
      have fits : Fits 2 test ts := ⟨testTight, testCanonical, writtenTest⟩
      have some : 0 < ts.length := List.length_pos_iff.mpr fits.nonempty
      obtain ⟨s₁, pastTest, past₁⟩ := Stream.past_append.mp past
      obtain ⟨s₂, pastMark, past₂⟩ := Stream.past_cons.mp past₁
      obtain ⟨s₃, pastTrue, past₃⟩ := Stream.past_append.mp past₂
      obtain ⟨s₄, pastColon, pastFalse⟩ := Stream.past_cons.mp past₃
      simp only [List.length_append, List.length_cons] at short
      have stopTest : Stops 2 test s₁.items := by
        rw [past₁.items_eq]
        rintro r ⟨⟩
        decide
      have stopTrue : Stops 0 onTrue s₃.items := by
        rw [past₃.items_eq]
        exact stops_of_none rfl
      obtain ⟨test', read, same⟩ :=
        (disjunction_readsRank inside).complete (by omega) fits pastTest stopTest
      obtain ⟨onTrue', readTrue, sameTrue⟩ :=
        inside.accepts_whole (by omega) ⟨canonicalTrue, writtenTrue⟩ pastTrue stopTrue
      obtain ⟨pos, placed⟩ := position_apply (M := Mistake) s₁
      refine ⟨vs, s₄, fun e => .conditional test' onTrue' e pos, by omega,
        ⟨canonicalFalse, writtenFalse⟩, pastFalse, ?_, fun e sameFalse => ?_⟩
      · unfold ternary
        rw [bind_ok read, bind_ok placed, bind_ok (accept_next _ pastMark)]
        change (inner >>= fun onTrue => _) s₂ = _
        rw [bind_ok readTrue, bind_ok (expect_next pastColon _)]
      · rw [Expr.bare, Expr.bare, same, sameTrue, sameFalse]

theorem accepts_ternary : Accepts Expr.bare (size + 1) (ternary inner) (Fits 1) (Stops 0) := by
  intro e ts s s' short fits past stop
  rcases Nat.lt_or_eq_of_le fits.tight with tighter | level
  · exact accepts_test inside short ⟨tighter, fits.canonical, fits.spells⟩ past
      (stop.weaken (Nat.le_succ 0))
  · cases e with
    | conditional test onTrue onFalse p =>
        obtain ⟨us, s₁, join, small, whole, past₁, ran, joins⟩ :=
          ternary_apply inside short fits.canonical fits.spells past
        obtain ⟨onFalse', read, same⟩ := inside.accepts_whole small whole past₁ (stop.congr rfl)
        refine ⟨join onFalse', ?_, joins onFalse' same⟩
        rw [ran]
        exact bind_ok read
    | binary => exact absurd level (ne_rank_binary (by decide))
    | logical => exact absurd level (ne_rank_logical (by decide))
    | update op before => cases before <;> cases level
    | literal | name | array | object | unary | assignment | call | member | index | grouping =>
        cases level

omit inside in
theorem assignOp?_sign {t : Token} {op : AssignOp} (found : assignOp? t = some op) :
    t = .mark op.sign := by
  unfold assignOp? at found
  split at found <;> cases found <;> rfl

omit inside in
theorem assignOp?_of_sign (op : AssignOp) : assignOp? (.mark op.sign) = some op := by
  cases op <;> rfl

omit inside in
theorem AssignOp.continuation? (op : AssignOp) (updated : Bool) (rest : List Token) :
    JavaScript.continuation? updated (.mark op.sign :: rest) = some 0 := by
  cases op <;> rfl

omit inside in
theorem stops_at_assignment {e : Expr} {op : AssignOp} {rest : List Token}
    (next : rest.head? = some (.mark op.sign)) : Stops 1 e rest := by
  intro r goesOn
  rw [← List.cons_head?_tail next, AssignOp.continuation?] at goesOn
  cases goesOn
  decide

theorem reads_assignment (s : Stream Token) : Reads s (assignment inner) (Fits 0) := by
  refine .andThen (reads_ternary inside s) fun target ts s₁ fits _ => .position fun pos => .peek ?_
  split
  · next op found =>
      obtain ⟨t, next, signed⟩ := Option.bind_eq_some_iff.mp found
      refine .advance next fun s₂ _ => ?_
      cases assignOp?_sign signed
      cases assignable : target.isAssignable with
      | true =>
          refine .andThen (inside.reads_whole s₂) fun value us s₃ whole _ => .give ?_
          rw [List.append_nil]
          refine ⟨Nat.le_refl 0, ?_, .assignment op pos fits.spells whole.2⟩
          rw [Expr.isCanonical, assignable, fits.canonical, whole.1, Bool.and_true, Bool.and_true]
      | false => exact .andThen (.fail (G := fun _ _ => False) _) fun _ _ _ => False.elim
  · refine .give ?_
    rw [List.append_nil]
    exact fits.weaken (Nat.le_succ 0)

theorem assignment_apply {op : AssignOp} {target value : Expr} {p : Position} {ts : List Token}
    {s s' : Stream Token} (short : ts.length ≤ size + 1)
    (canonical : (Expr.assignment op target value p).isCanonical = true)
    (spells : Spells (.assignment op target value p) ts) (past : s.Past ts s') :
    ∃ (us : List Token) (s₁ : Stream Token) (join : Expr → Expr),
      us.length ≤ size ∧ Whole value us ∧ s₁.Past us s' ∧
      assignment inner s = (do return join (← inner)) s₁ ∧ ∀ e : Expr, e.bare = value.bare →
        (join e).bare = (Expr.assignment op target value p).bare := by
  simp only [Expr.isCanonical, Bool.and_eq_true] at canonical
  obtain ⟨assignable, targetCanonical, valueCanonical⟩ := canonical
  cases spells with
  | @assignment _ _ ts us _ _ writtenTarget writtenValue =>
      have targetTight : 2 ≤ target.rank :=
        Nat.le_trans (by decide) (Expr.rank_of_isAssignable assignable)
      have fits : Fits 2 target ts := ⟨targetTight, targetCanonical, writtenTarget⟩
      have some : 0 < ts.length := List.length_pos_iff.mpr fits.nonempty
      obtain ⟨s₁, pastTarget, past₁⟩ := Stream.past_append.mp past
      obtain ⟨s₂, pastSign, pastValue⟩ := Stream.past_cons.mp past₁
      rw [List.length_append, List.length_cons] at short
      obtain ⟨target', read, same⟩ := accepts_test inside (by omega) fits pastTarget
        (stops_at_assignment pastSign.head?)
      obtain ⟨pos, placed⟩ := position_apply (M := Mistake) s₁
      refine ⟨us, s₂, fun e => .assignment op target' e pos, by omega,
        ⟨valueCanonical, writtenValue⟩, pastValue, ?_, fun e sameValue => ?_⟩
      · unfold assignment
        rw [bind_ok read, bind_ok placed, bind_ok (peek?_apply s₁), pastSign.head?,
          Option.bind_some, assignOp?_of_sign]
        dsimp only
        rw [bind_ok (advance_apply pastSign), Expr.isAssignable_eq_of_bare same, assignable]
        rfl
      · rw [Expr.bare, Expr.bare, same, sameValue]

theorem accepts_assignment :
    Accepts Expr.bare (size + 1) (assignment inner) (Fits 0) (Stops 0) := by
  intro e ts s s' short fits past stop
  rcases Nat.lt_or_eq_of_le fits.tight with tighter | level
  · obtain ⟨e', read, same⟩ :=
      accepts_ternary inside short ⟨tighter, fits.canonical, fits.spells⟩ past stop
    obtain ⟨pos, placed⟩ := position_apply (M := Mistake) s'
    have none : s'.items.head?.bind assignOp? = none := by
      cases found : s'.items.head?.bind assignOp? with
      | none => rfl
      | some op =>
          obtain ⟨t, next, signed⟩ := Option.bind_eq_some_iff.mp found
          cases assignOp?_sign signed
          rw [← List.cons_head?_tail next] at stop
          exact absurd (stop 0 (AssignOp.continuation? op _ _)) (Nat.lt_irrefl 0)
    refine ⟨e', ?_, same⟩
    unfold assignment
    rw [bind_ok read, bind_ok placed, bind_ok (peek?_apply s'), none]
    rfl
  · cases e with
    | assignment op target value p =>
        obtain ⟨us, s₁, join, small, whole, past₁, ran, joins⟩ :=
          assignment_apply inside short fits.canonical fits.spells past
        obtain ⟨value', read, same⟩ := inside.accepts_whole small whole past₁ (stop.congr rfl)
        refine ⟨join value', ?_, joins value' same⟩
        rw [ran]
        exact bind_ok read
    | binary => exact absurd level (ne_rank_binary (by decide))
    | logical => exact absurd level (ne_rank_logical (by decide))
    | update op before => cases before <;> cases level
    | literal | name | array | object | unary | conditional | call | member | index | grouping =>
        cases level

/-- What is refused behind every test, and behind the last part of a conditional or an assignment,
is refused behind every expression. -/
theorem rejects_assignment {bad : Expr → List Token → Prop} {mistake : Mistake}
    (last : Rejects size inner (Fits 0) bad mistake)
    (tests : Rejects (size + 1) (assignment inner) (Fits 2) bad mistake)
    (branch : ∀ {test onTrue onFalse p rest}, bad (.conditional test onTrue onFalse p) rest →
      bad onFalse rest)
    (stored : ∀ {op target value p rest}, bad (.assignment op target value p) rest →
      bad value rest) :
    Rejects (size + 1) (assignment inner) (Fits 0) bad mistake := by
  intro e ts s s' short fits past isBad
  rw [fits_zero] at last
  rcases Nat.lt_or_ge e.rank 2 with loose | tight
  · cases e with
    | conditional test onTrue onFalse p =>
        obtain ⟨us, s₁, join, small, whole, past₁, ran, -⟩ :=
          ternary_apply inside short fits.canonical fits.spells past
        obtain ⟨place, s'', failed⟩ := last small whole past₁ (branch isBad)
        refine ⟨place, s'', ?_⟩
        unfold assignment
        refine bind_error ?_
        rw [ran]
        exact bind_error failed
    | assignment op target value p =>
        obtain ⟨us, s₁, join, small, whole, past₁, ran, -⟩ :=
          assignment_apply inside short fits.canonical fits.spells past
        obtain ⟨place, s'', failed⟩ := last small whole past₁ (stored isBad)
        refine ⟨place, s'', ?_⟩
        rw [ran]
        exact bind_error failed
    | binary op => exact absurd (Nat.le_trans (by decide) op.le_rank) (Nat.not_le.mpr loose)
    | logical op => exact absurd op.le_rank (Nat.not_le.mpr loose)
    | update op before => cases before <;> exact absurd loose (by simp [Expr.rank])
    | literal | name | array | object | unary | call | member | index | grouping =>
        exact absurd loose (by simp [Expr.rank])
  · exact tests short ⟨tight, fits.canonical, fits.spells⟩ past isBad

theorem rejects_missed_assignment :
    Rejects (size + 1) (assignment inner) (Fits 2) MissesAssigned .invalidAssignmentTarget := by
  rintro e ts s s' short fits past ⟨missed, op, next⟩
  obtain ⟨e', read, same⟩ := accepts_test inside short fits past (stops_at_assignment next)
  have noTarget : e'.isAssignable = false := by
    rw [Expr.isAssignable_eq_of_bare same, ← Expr.assigned_of_tight fits.tight]
    exact missed
  obtain ⟨s₁, pastSign⟩ := Stream.past_of_head? next
  obtain ⟨pos, placed⟩ := position_apply (M := Mistake) s'
  obtain ⟨place, failed⟩ := fail_apply (α := PUnit) Mistake.invalidAssignmentTarget s₁
  refine ⟨place, s₁, ?_⟩
  unfold assignment
  rw [bind_ok read, bind_ok placed, bind_ok (peek?_apply s'), next, Option.bind_some,
    assignOp?_of_sign]
  dsimp only
  rw [bind_ok (advance_apply pastSign), noTarget]
  exact bind_error failed

theorem assignment_readsRank : ReadsRank (size + 1) 0 (assignment inner) where
  sound := reads_assignment inside
  complete := accepts_assignment inside
  refuses := by
    refine rejects_assignment inside inside.refuses ?_ (fun misses => misses) fun misses => misses
    intro e ts s s' short fits past misses
    obtain ⟨place, s'', failed⟩ :=
      (disjunction_readsRank inside).refuses short fits past misses
    exact ⟨place, s'', bind_error (bind_error failed)⟩

end Ranks

theorem nested_readsRank (bound : Nat) : ReadsRank bound 0 (nested bound) := by
  induction bound with
  | zero =>
      refine ⟨fun s => reads_failMissing _ _, fun e ts s s' short fits past stop => ?_,
        fun e ts s s' short fits past misses => ?_⟩
      · exact absurd (List.length_eq_zero_iff.mp (Nat.le_zero.mp short)) fits.nonempty
      · exact absurd (List.length_eq_zero_iff.mp (Nat.le_zero.mp short)) fits.nonempty
  | succ bound ih => exact assignment_readsRank ih

theorem nested_rejects (bound : Nat) :
    Rejects bound (nested bound) (Fits 0) MissesAssigned .invalidAssignmentTarget := by
  induction bound with
  | zero =>
      intro e ts s s' short fits past misses
      exact absurd (List.length_eq_zero_iff.mp (Nat.le_zero.mp short)) fits.nonempty
  | succ bound ih =>
      have inside := nested_readsRank bound
      exact rejects_assignment inside ih (rejects_missed_assignment inside) (fun misses => misses)
        fun misses => misses

/-- The reader of expressions reads their grammar. However a canonical expression is written, it is
read back, up to places, unless what follows goes on with it. A sign that takes a target goes on
with everything, since the reader looks at the target behind it: if it finds none, it is refused
there. Whatever is read is canonical, and it was written with the tokens that were read: they are
its printing, but for commas behind the last element of an array or object and for keys written as
names. -/
theorem expression_reads_precedence :
    (∀ e ts s s', Expr.isCanonical e = true → Spells e ts → Stream.Past s ts s' →
      (continuation? e.endsInUpdate s'.items = none →
        ∃ e', expression s = .ok e' s' ∧ e'.bare = e.bare) ∧
      (MissesAssigned e s'.items →
        ∃ place s'', expression s = .error ⟨.invalidAssignmentTarget, place⟩ s'') ∧
      (MissesUpdated e s'.items →
        ∃ place s'', expression s = .error ⟨.invalidUpdateTarget, place⟩ s'')) ∧
    (∀ e, Spells e e.print) ∧
    (∀ s e s', expression s = .ok e s' →
      e.isCanonical = true ∧ ∃ ts, s.Past ts s' ∧ Spells e ts) := by
  refine ⟨?_, spells_print, ?_⟩
  · intro e ts s s' canonical spells past
    have within : ts.length ≤ s.ahead.length := by
      rw [past.length_eq]
      exact Nat.le_add_right _ _
    have fits : Fits 0 e ts := ⟨Nat.zero_le _, canonical, spells⟩
    unfold expression
    rw [bind_ok (remaining_apply s)]
    refine ⟨fun stop => ?_, fun misses => ?_, fun misses => ?_⟩
    · exact (nested_readsRank _).complete within fits past (stops_of_none stop)
    · exact nested_rejects _ within fits past misses
    · exact (nested_readsRank _).refuses within fits past misses
  · intro s e s' ended
    unfold expression at ended
    rw [bind_ok (remaining_apply s)] at ended
    obtain ⟨ts, fits, past⟩ := (nested_readsRank _).sound s ended
    exact ⟨fits.canonical, ts, past, fits.spells⟩

/-- The tokens of `a = b ? -c++ : [d,]`, with a comma behind the last element. -/
theorem reads_conditional_assignment :
    let tokens : List Token := [.name "a", .mark .assign, .name "b", .mark .question,
      .mark .minus, .name "c", .mark .plusPlus, .mark .colon, .mark .lBracket, .name "d",
      .mark .comma, .mark .rBracket]
    let s : Stream Token := ⟨none, tokens.map (⟨·, {}⟩), {}⟩
    let e : Expr := .assignment .assign (.name "a" {})
      (.conditional (.name "b" {}) (.unary .negate (.update .increment false (.name "c" {}) {}) {})
        (.array [.name "d" {}] {}) {}) {}
    ∃ e' s', expression s = .ok e' s' ∧ e'.bare = e := by
  intro tokens s e
  obtain ⟨s', past, rest⟩ := Stream.exists_past (show s.items = tokens ++ [] from rfl)
  have canonical : e.isCanonical = true := rfl
  have negated : Spells (.unary .negate (.update .increment false (.name "c" {}) {}) {})
      [.mark .minus, .name "c", .mark .plusPlus] :=
    .unary .negate {} (.updateBehind .increment {} (.name "c" {}))
  have element : Spells (.name "d" {}) [.name "d"] := .name "d" {}
  have items : Items Spells true [.name "d" {}] [.name "d", .mark .comma] :=
    .more element (fun _ => rfl) .none
  have spells : Spells e tokens :=
    .assignment .assign {} (.name "a" {})
      (.conditional {} (.name "b" {}) negated (.array {} items))
  have stop : continuation? e.endsInUpdate s'.items = none := by
    rw [rest]
    rfl
  obtain ⟨e', read, same⟩ :=
    (expression_reads_precedence.1 e tokens s s' canonical spells past).1 stop
  exact ⟨e', s', read, same⟩

end Walkthrough.JavaScript.Reader
