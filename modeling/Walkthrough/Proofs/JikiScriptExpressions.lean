import Walkthrough.Proofs.JikiScriptGrammar

/-! The reader of JikiScript expressions reads their grammar: what it gives is canonical and was
written there, and what is written there it gives. Inside brackets a reader for one bracket less is
used, so the proof goes up with the nesting that a reader allows; each rank of operators is read by
what reads the next one. -/

namespace Walkthrough.JikiScript.Reader

open Walkthrough.Parser

/-- A canonical expression of any rank, with line breaks where brackets allow them. -/
def Whole (e : Expr) (ts : List Token) : Prop :=
  e.isCanonical = true ∧ Spells Breaks e ts

theorem fits_zero : Fits Breaks 0 = Whole := by
  funext e ts
  exact propext ⟨fun h => ⟨h.canonical, h.spells⟩, fun h => ⟨Nat.zero_le _, h.1, h.2⟩⟩

section Sound

variable {s : Stream Token}

theorem reads_expect (token : Token) (mistake : Mistake) :
    Reads s (expect token mistake) fun _ ts => ts = [token] := by
  refine .accept token (fun s' _ => .give rfl) fun _ => ?_
  exact .fail mistake

theorem reads_skipNewlines : Reads s skipNewlines fun _ ts => Breaks ts := by
  refine .remaining fun bound => ?_
  induction bound generalizing s with
  | zero => exact .give breaks_nil
  | succ bound ih =>
      refine .accept Token.newline (fun s' _ => ?_) fun _ => .give breaks_nil
      refine fun a s'' ended => ?_
      obtain ⟨ts, breaks, past⟩ := ih ended
      exact ⟨ts, List.forall_mem_cons.mpr ⟨rfl, breaks⟩, past⟩

section Items

variable {α : Type} {item : Reader α} {written : α → List Token → Prop}
  (items : ∀ s, Reads s item written)
include items

theorem reads_commaSeparated (bound : Nat) :
    Reads s (commaSeparated item bound) (Separated Breaks written) := by
  induction bound generalizing s with
  | zero =>
      refine .andThen (items s) fun a ts s' first _ => .give ?_
      exact .one first breaks_nil
  | succ bound ih =>
      refine .andThen (items s) fun a ts s₁ first _ => ?_
      refine .andThen reads_skipNewlines fun _ behind s₂ breaks _ => ?_
      refine .accept (Token.mark .comma) (fun s₃ _ => ?_) fun _ => .give ?_
      · refine .andThen reads_skipNewlines fun _ before s₄ breaks' _ => ?_
        refine .andThen ih fun rest us s₅ others _ => .give ?_
        rw [List.append_nil]
        exact .more first breaks breaks' others
      · rw [List.append_nil]
        exact .one first breaks

theorem reads_enclosed (closing : Mark) (mistake : Mistake) :
    Reads s (enclosed item closing mistake) (Enclosed Breaks written closing) := by
  refine .andThen reads_skipNewlines fun _ before s₁ breaks _ => ?_
  refine .isNext (Token.mark closing) (fun _ => ?_) fun _ => ?_
  · refine .andThen (.give (G := fun xs ts => xs = [] ∧ ts = []) ⟨rfl, rfl⟩) ?_
    rintro _ _ s₂ ⟨rfl, rfl⟩ _
    refine .andThen (reads_expect _ _) fun _ last s₃ closed _ => .give ?_
    subst closed
    exact .none breaks
  · refine .remaining fun bound => .andThen (reads_commaSeparated items bound) ?_
    refine fun xs ts s₂ separated _ => ?_
    refine .andThen (reads_expect _ _) fun _ last s₃ closed _ => .give ?_
    subst closed
    exact .some breaks separated

end Items

theorem enclosed_whole {closing : Mark} {es : List Expr} {ts : List Token} :
    Enclosed Breaks Whole closing es ts ↔
      Expr.allCanonical es = true ∧ Enclosed Breaks (Spells Breaks) closing es ts := by
  rw [allCanonical_iff]
  exact enclosed_and (P := fun e : Expr => e.isCanonical = true)

theorem enclosed_entries {closing : Mark} {es : List (String × Expr)} {ts : List Token} :
    Enclosed Breaks (Entry Breaks Whole) closing es ts ↔
      Expr.entriesCanonical es = true ∧
        Enclosed Breaks (Entry Breaks (Spells Breaks)) closing es ts := by
  have each : Entry Breaks Whole =
      fun e ts => e.2.isCanonical = true ∧ Entry Breaks (Spells Breaks) e ts := by
    funext e ts
    refine propext ⟨?_, ?_⟩
    · rintro ⟨before, canonical, spells⟩
      exact ⟨canonical, .mk before spells⟩
    · rintro ⟨canonical, ⟨before, spells⟩⟩
      exact .mk before ⟨canonical, spells⟩
  rw [entriesCanonical_iff, each]
  exact enclosed_and (P := fun e : String × Expr => e.2.isCanonical = true)

variable {inner : Reader Expr} (inside : ∀ s, Reads s inner Whole)
include inside

theorem reads_entry : Reads s (entry inner) (Entry Breaks Whole) := by
  refine .peek ?_
  split
  · next key next =>
      refine .advance next fun s₁ _ => ?_
      refine .andThen (reads_expect _ _) fun _ colon s₂ marked _ => ?_
      refine .andThen reads_skipNewlines fun _ before s₃ breaks _ => ?_
      refine .andThen (inside s₃) fun e ts s₄ whole _ => .give ?_
      subst marked
      have made : Entry Breaks Whole (key, e) (.text key :: .mark .colon :: (before ++ ts)) :=
        .mk breaks whole
      rw [List.append_nil]
      exact made
  · exact .fail _

theorem reads_primary : Reads s (primary inner) (Fits Breaks 8) := by
  have literal {t : Token} (value : Literal) (pos : Position) (same : value.token = t) :
      Fits Breaks 8 (.literal value pos) [t] :=
    ⟨Nat.le_refl 8, rfl, same ▸ .literal value pos⟩
  refine .position fun pos => .peek ?_
  split
  · next x next => exact .advance next fun s₁ _ => .give (literal (.number x) pos rfl)
  · next x next => exact .advance next fun s₁ _ => .give (literal (.text x) pos rfl)
  · next next => exact .advance next fun s₁ _ => .give (literal (.boolean true) pos rfl)
  · next next => exact .advance next fun s₁ _ => .give (literal (.boolean false) pos rfl)
  · next next => exact .advance next fun s₁ _ => .give (literal .null pos rfl)
  · next name next =>
      refine .advance next fun s₁ _ => .accept (Token.mark .lParen) (fun s₂ _ => ?_) fun _ => ?_
      · refine .andThen (reads_enclosed inside _ _) fun args ts s₃ read _ => .give ?_
        obtain ⟨canonical, enclosed⟩ := enclosed_whole.mp read
        rw [List.append_nil]
        exact ⟨Nat.le_refl 8, canonical, .call name pos enclosed⟩
      · exact .give ⟨Nat.le_refl 8, rfl, .name name pos⟩
  · next next =>
      refine .advance next fun s₁ _ => .andThen (inside s₁) fun e ts s₂ whole _ => ?_
      refine .andThen (reads_expect _ _) fun _ last s₃ closed _ => .give ?_
      subst closed
      exact ⟨Nat.le_refl 8, whole.1, .grouping pos whole.2⟩
  · next next =>
      refine .advance next fun s₁ _ => ?_
      refine .andThen (reads_enclosed inside _ _) fun es ts s₂ read _ => .give ?_
      obtain ⟨canonical, enclosed⟩ := enclosed_whole.mp read
      rw [List.append_nil]
      exact ⟨Nat.le_refl 8, canonical, .list pos enclosed⟩
  · next next =>
      refine .advance next fun s₁ _ => ?_
      refine .andThen (reads_enclosed (fun _ => reads_entry inside) _ _) fun es ts s₂ read _ =>
        .give ?_
      obtain ⟨canonical, enclosed⟩ := enclosed_entries.mp read
      rw [List.append_nil]
      exact ⟨Nat.le_refl 8, canonical, .dictionary pos enclosed⟩
  · exact .fail _

theorem reads_indexed : Reads s (indexed inner) (Fits Breaks 7) := by
  refine indexed_chain.reads (fun _ => reads_primary inside) (fun object s => ?_) s
  refine .position fun pos => .accept (Token.mark .lBracket) (fun s₁ _ => ?_) fun _ => .give rfl
  refine .andThen (inside s₁) fun key ts s₂ whole _ => ?_
  refine .andThen (reads_expect _ _) fun _ last s₃ closed _ => .give ?_
  subst closed
  exact ⟨key, ts, pos, whole.1, whole.2, rfl, rfl⟩

omit inside in
theorem unaryOp?_spells {t : Token} {op : UnaryOp} (found : unaryOp? t = some op) :
    t ∈ op.spellings := by
  unfold unaryOp? at found
  split at found
  · cases found
    decide
  · cases found
    decide
  · cases found
    decide
  · cases found

theorem reads_unary (bound : Nat) : Reads s (unary inner bound) (Fits Breaks 6) := by
  have indexed (s : Stream Token) : Reads s (indexed inner) (Fits Breaks 6) := by
    intro e s' ended
    obtain ⟨ts, fits, past⟩ := reads_indexed inside ended
    exact ⟨ts, fits.weaken (Nat.le_succ 6), past⟩
  induction bound generalizing s with
  | zero => exact indexed s
  | succ bound ih =>
      refine .position fun pos => .peek ?_
      split
      · next op found =>
          obtain ⟨t, next, prefixed⟩ := Option.bind_eq_some_iff.mp found
          refine .advance next fun s₁ _ => .andThen ih fun operand ts s₂ fits _ => .give ?_
          rw [List.append_nil]
          refine ⟨Nat.le_refl 6, ?_, .unary pos (unaryOp?_spells prefixed) fits.spells⟩
          simp only [Expr.isCanonical, Bool.and_eq_true, decide_eq_true_eq]
          exact ⟨fits.tight, fits.canonical⟩
      · exact indexed s

end Sound

section Complete

variable {s s' : Stream Token}

theorem expect_next {token : Token} (past : s.Past [token] s') (mistake : Mistake) :
    expect token mistake s = .ok () s' := by
  unfold expect
  rw [bind_ok (accept_next token past)]
  rfl

theorem skipNewlines_apply {breaks : List Token} (newlines : Breaks breaks)
    (past : s.Past breaks s') (next : s'.items.head? ≠ some .newline) :
    skipNewlines s = .ok () s' := by
  unfold skipNewlines
  rw [bind_ok (remaining_apply s)]
  have enough : breaks.length ≤ s.ahead.length := by
    rw [past.length_eq]
    exact Nat.le_add_right _ _
  generalize s.ahead.length = bound at enough
  induction breaks generalizing s bound with
  | nil =>
      cases past
      cases bound with
      | zero => rfl
      | succ bound =>
          unfold skipNewlinesTo
          rw [bind_ok (accept_other _ next)]
          rfl
  | cons t rest ih =>
      obtain ⟨rfl, others⟩ := List.forall_mem_cons.mp newlines
      obtain ⟨s₁, first, behind⟩ := Stream.past_cons.mp past
      cases bound with
      | zero => cases enough
      | succ bound =>
          unfold skipNewlinesTo
          rw [bind_ok (accept_next _ first)]
          exact ih others behind bound (Nat.le_of_succ_le_succ enough)

section Items

variable {α β : Type} {view : α → β} {size : Nat} {item : Reader α}
  {written : α → List Token → Prop} {stops : α → List Token → Prop} {closing : Mark}
  (items : Accepts view size item written stops)
  (starts : ∀ a ts, written a ts → ∃ t rest, ts = t :: rest ∧ t ≠ .newline ∧ t ≠ .mark closing)
  (stopped : ∀ a t rest, t = .newline ∨ t = .mark .comma ∨ t = .mark closing → stops a (t :: rest))
  (other : closing ≠ .comma)
include starts

theorem separated_starts {xs : List α} {ts : List Token}
    (separated : Separated Breaks written xs ts) :
    ∃ t rest, ts = t :: rest ∧ t ≠ .newline ∧ t ≠ .mark closing := by
  cases separated with
  | one first _ =>
      obtain ⟨t, rest, rfl, others⟩ := starts _ _ first
      exact ⟨t, _, rfl, others⟩
  | more first _ _ _ =>
      obtain ⟨t, rest, rfl, others⟩ := starts _ _ first
      exact ⟨t, _, rfl, others⟩

include items stopped other

theorem accepts_commaSeparated {xs : List α} {ts : List Token}
    (separated : Separated Breaks written xs ts) {bound : Nat} {s s' : Stream Token}
    (enough : ts.length ≤ bound) (short : ts.length ≤ size) (past : s.Past ts s')
    (next : s'.items.head? = some (.mark closing)) :
    ∃ xs', commaSeparated item bound s = .ok xs' s' ∧ xs'.map view = xs.map view := by
  -- line breaks in front of a comma or of the closing bracket stop an item, and so do these two
  have stoppedBehind (a : α) {breaks : List Token} (newlines : Breaks breaks) {t : Token}
      (rest : List Token) (ending : t = .mark .comma ∨ t = .mark closing) :
      stops a (breaks ++ t :: rest) := by
    cases breaks with
    | nil => exact stopped a t rest (Or.inr ending)
    | cons first others => exact stopped a first _ (Or.inl (newlines _ List.mem_cons_self))
  induction separated generalizing bound s with
  | @one a ts behind first newlines =>
      obtain ⟨t, rest, rfl, -⟩ := starts _ _ first
      obtain ⟨s₁, past₁, past₂⟩ := Stream.past_append.mp past
      rw [List.length_append] at short
      cases bound with
      | zero => cases enough
      | succ bound =>
          have stop : stops a s₁.items := by
            rw [past₂.items_eq, ← List.cons_head?_tail next]
            exact stoppedBehind a newlines _ (Or.inr rfl)
          obtain ⟨a', read, same⟩ := items (by omega) first past₁ stop
          have notBreak : s'.items.head? ≠ some .newline := by
            rw [next]
            exact nofun
          have notComma : s'.items.head? ≠ some (.mark .comma) := by
            rw [next]
            exact fun same => other (Token.mark.inj (Option.some.inj same))
          refine ⟨[a'], ?_, by rw [List.map_singleton, List.map_singleton, same]⟩
          unfold commaSeparated
          rw [bind_ok read, bind_ok (skipNewlines_apply newlines past₂ notBreak),
            bind_ok (accept_other _ notComma)]
          rfl
  | @more a rest ts behind before us first newlines newlines' separated ih =>
      obtain ⟨t, others, rfl, -⟩ := starts _ _ first
      obtain ⟨u, us', rfl, notBreak, -⟩ := separated_starts starts separated
      obtain ⟨s₁, past₁, past₂⟩ := Stream.past_append.mp past
      obtain ⟨s₂, pastBehind, past₃⟩ := Stream.past_append.mp past₂
      obtain ⟨s₃, pastComma, past₄⟩ := Stream.past_cons.mp past₃
      obtain ⟨s₄, pastBefore, past₅⟩ := Stream.past_append.mp past₄
      simp only [List.length_append, List.length_cons] at short enough
      cases bound with
      | zero => omega
      | succ bound =>
          have stop : stops a s₁.items := by
            rw [past₂.items_eq, List.append_assoc]
            exact stoppedBehind a newlines _ (Or.inl rfl)
          obtain ⟨a', read, same⟩ := items (by rw [List.length_cons]; omega) first past₁ stop
          have comma : s₂.items.head? ≠ some .newline := by
            rw [pastComma.head?]
            exact nofun
          have noBreak : s₄.items.head? ≠ some .newline := by
            rw [past₅.head?]
            exact fun same => notBreak (Option.some.inj same)
          obtain ⟨xs', readRest, sameRest⟩ := @ih bound s₄ (by rw [List.length_cons]; omega)
            (by rw [List.length_cons]; omega) past₅
          refine ⟨a' :: xs', ?_, by rw [List.map_cons, List.map_cons, same, sameRest]⟩
          unfold commaSeparated
          rw [bind_ok read, bind_ok (skipNewlines_apply newlines pastBehind comma),
            bind_ok (accept_next _ pastComma)]
          change (skipNewlines >>= fun _ => commaSeparated _ bound >>= fun xs =>
            pure (a' :: xs)) s₃ = _
          rw [bind_ok (skipNewlines_apply newlines' pastBefore noBreak), bind_ok readRest]
          rfl

theorem accepts_enclosed {xs : List α} {ts : List Token}
    (enclosed : Enclosed Breaks written closing xs ts) (short : ts.length ≤ size)
    (past : s.Past ts s') (mistake : Mistake) :
    ∃ xs', Reader.enclosed item closing mistake s = .ok xs' s' ∧
      xs'.map view = xs.map view := by
  cases enclosed with
  | none newlines =>
      obtain ⟨s₁, before, last⟩ := Stream.past_append.mp past
      have next := last.head?
      refine ⟨[], ?_, rfl⟩
      unfold Reader.enclosed
      rw [bind_ok (skipNewlines_apply newlines before (by rw [next]; exact nofun)),
        bind_ok (isNext_apply _ s₁), next, decide_eq_true rfl]
      exact bind_ok (expect_next last mistake)
  | @some _ breaks ts newlines separated =>
      obtain ⟨s₁, before, behind⟩ := Stream.past_append.mp past
      obtain ⟨s₂, read, last⟩ := Stream.past_append.mp behind
      obtain ⟨t, rest, rfl, notBreak, notClosing⟩ := separated_starts starts separated
      simp only [List.length_append] at short
      have next := read.head?
      have enough : (t :: rest).length ≤ s₁.ahead.length := by
        rw [read.length_eq]
        exact Nat.le_add_right _ _
      obtain ⟨xs', ran, same⟩ := accepts_commaSeparated items starts stopped other separated enough
        (by omega) read last.head?
      refine ⟨xs', ?_, same⟩
      unfold Reader.enclosed
      have first : s₁.items.head? ≠ some .newline := by
        rw [next]
        exact fun same => notBreak (Option.some.inj same)
      have notEmpty : s₁.items.head? ≠ some (.mark closing) := by
        rw [next]
        exact fun same => notClosing (Option.some.inj same)
      rw [bind_ok (skipNewlines_apply newlines before first), bind_ok (isNext_apply _ s₁),
        decide_eq_false notEmpty]
      change (remaining >>= commaSeparated item >>= fun xs => expect (.mark closing) mistake >>=
        fun _ => pure xs) s₁ = _
      rw [bind_assoc, bind_ok (remaining_apply s₁), bind_ok ran,
        bind_ok (expect_next last mistake)]
      rfl

end Items

theorem stops_of_none {rank : Nat} {e : Expr} {rest : List Token}
    (none : continuation? e.endsInName rest = none) : Stops rank e rest := by
  intro r goesOn
  rw [none] at goesOn
  cases goesOn

theorem stops_behindItem {closing : Mark} (closes : closing ∈ [Mark.rParen, .rBracket, .rBrace])
    (e : Expr) (t : Token) (rest : List Token)
    (ending : t = .newline ∨ t = .mark .comma ∨ t = .mark closing) : Stops 0 e (t :: rest) := by
  apply stops_of_none
  simp only [List.mem_cons, List.not_mem_nil, or_false] at closes
  rcases ending with rfl | rfl | rfl
  · rfl
  · rfl
  · rcases closes with rfl | rfl | rfl <;> rfl

theorem Whole.starts {closing : Mark} (closes : closing ∈ [Mark.rParen, .rBracket, .rBrace])
    (e : Expr) (ts : List Token) (whole : Whole e ts) :
    ∃ t rest, ts = t :: rest ∧ t ≠ .newline ∧ t ≠ .mark closing := by
  obtain ⟨t, rest, rfl, starts⟩ := Spells.starts e whole.2
  simp only [List.mem_cons, List.not_mem_nil, or_false] at closes
  refine ⟨t, rest, rfl, ?_, ?_⟩
  · rintro rfl
    exact absurd starts (by decide)
  · rintro rfl
    rcases closes with rfl | rfl | rfl <;> exact absurd starts (by decide)

variable {size : Nat} {inner : Reader Expr}
  (inside : Accepts Expr.bare size inner Whole (Stops 0))
include inside

theorem accepts_inBrackets {closing : Mark} (closes : closing ∈ [Mark.rParen, .rBracket, .rBrace])
    {es : List Expr} {ts : List Token} (canonical : Expr.allCanonical es = true)
    (enclosed : Enclosed Breaks (Spells Breaks) closing es ts) (short : ts.length ≤ size)
    (past : s.Past ts s') (mistake : Mistake) :
    ∃ es', Reader.enclosed inner closing mistake s = .ok es' s' ∧
      Expr.bareAll es' = Expr.bareAll es := by
  have other : closing ≠ .comma := by
    rintro rfl
    exact absurd closes (by decide)
  obtain ⟨es', read, same⟩ := accepts_enclosed inside (Whole.starts closes)
    (stops_behindItem closes) other (enclosed_whole.mpr ⟨canonical, enclosed⟩) short past mistake
  exact ⟨es', read, by rw [bareAll_eq, bareAll_eq, same]⟩

theorem accepts_entry :
    Accepts (fun e => (e.1, e.2.bare)) (size + 2) (entry inner) (Entry Breaks Whole)
      (fun e => Stops 0 e.2) := by
  rintro _ _ s s' short (@⟨key, e, _, _, newlines, whole⟩) past stop
  obtain ⟨s₁, pastKey, past₁⟩ := Stream.past_cons.mp past
  obtain ⟨s₂, pastColon, past₂⟩ := Stream.past_cons.mp past₁
  obtain ⟨s₃, pastBreaks, past₃⟩ := Stream.past_append.mp past₂
  obtain ⟨t, rest, rfl, starts⟩ := Spells.starts _ whole.2
  simp only [List.length_cons, List.length_append] at short
  have noBreak : s₃.items.head? ≠ some .newline := by
    rw [past₃.head?]
    rintro ⟨⟩
    exact absurd starts (by decide)
  obtain ⟨e', read, same⟩ := inside (by rw [List.length_cons]; omega) whole past₃ stop
  refine ⟨(key, e'), ?_, congrArg (Prod.mk key) same⟩
  unfold entry
  rw [bind_ok (peek?_apply s), pastKey.head?]
  dsimp only
  rw [bind_ok (advance_apply pastKey), bind_ok (expect_next pastColon _),
    bind_ok (skipNewlines_apply newlines pastBreaks noBreak), bind_ok read]
  rfl

theorem accepts_primary :
    Accepts Expr.bare (size + 1) (primary inner) (Fits Breaks 8) (Stops 8) := by
  rintro e ts s s' short ⟨tight, canonical, spells⟩ past stop
  obtain ⟨pos, placed⟩ := position_apply (M := Mistake) s
  unfold primary
  rw [bind_ok placed, bind_ok (peek?_apply s)]
  cases spells with
  | literal value p =>
      refine ⟨.literal value pos, ?_, rfl⟩
      rw [past.head?]
      cases value with
      | boolean b => cases b <;> exact bind_ok (advance_apply past)
      | number x | text t | null => exact bind_ok (advance_apply past)
  | name word p =>
      refine ⟨.name word pos, ?_, rfl⟩
      have noCall : s'.items.head? ≠ some (.mark .lParen) := by
        intro next
        rw [← List.cons_head?_tail next] at stop
        exact absurd (stop 8 rfl) (by decide)
      rw [past.head?]
      dsimp only
      rw [bind_ok (advance_apply past), bind_ok (accept_other _ noCall)]
      rfl
  | call callee p enclosed =>
      obtain ⟨s₁, pastName, past₁⟩ := Stream.past_cons.mp past
      obtain ⟨s₂, pastBracket, past₂⟩ := Stream.past_cons.mp past₁
      rw [List.length_cons, List.length_cons] at short
      obtain ⟨args', read, same⟩ := accepts_inBrackets inside (by decide) canonical enclosed
        (by omega) past₂ .missingRightParenAfterCall
      refine ⟨.call callee args' pos, ?_, by rw [Expr.bare, Expr.bare, same]⟩
      rw [pastName.head?]
      dsimp only
      rw [bind_ok (advance_apply pastName), bind_ok (accept_next _ pastBracket)]
      exact bind_ok read
  | @grouping e ts p written =>
      obtain ⟨s₁, pastBracket, past₁⟩ := Stream.past_cons.mp past
      obtain ⟨s₂, pastInner, last⟩ := Stream.past_append.mp past₁
      rw [List.length_cons, List.length_append] at short
      have stop : Stops 0 e s₂.items := by
        rw [last.items_eq]
        exact stops_of_none rfl
      have whole : Whole e ts := ⟨canonical, written⟩
      obtain ⟨inner', read, same⟩ := inside (by omega) whole pastInner stop
      refine ⟨.grouping inner' pos, ?_, by rw [Expr.bare, Expr.bare, same]⟩
      rw [pastBracket.head?]
      dsimp only
      rw [bind_ok (advance_apply pastBracket), bind_ok read, bind_ok (expect_next last _)]
      rfl
  | list p enclosed =>
      obtain ⟨s₁, pastBracket, past₁⟩ := Stream.past_cons.mp past
      rw [List.length_cons] at short
      obtain ⟨elements', read, same⟩ := accepts_inBrackets inside (by decide) canonical enclosed
        (by omega) past₁ .missingRightBracketAfterList
      refine ⟨.list elements' pos, ?_, by rw [Expr.bare, Expr.bare, same]⟩
      rw [pastBracket.head?]
      dsimp only
      rw [bind_ok (advance_apply pastBracket), bind_ok read]
      rfl
  | dictionary p enclosed =>
      obtain ⟨s₁, pastBracket, past₁⟩ := Stream.past_cons.mp past
      rw [List.length_cons] at short
      have starts (e : String × Expr) (ts : List Token) (written : Entry Breaks Whole e ts) :
          ∃ t rest, ts = t :: rest ∧ t ≠ .newline ∧ t ≠ .mark .rBrace := by
        obtain ⟨before, spells⟩ := written
        refine ⟨_, _, rfl, ?_, ?_⟩
        · intro same
          cases same
        · intro same
          cases same
      obtain ⟨entries', read, same⟩ := accepts_enclosed (accepts_entry inside) starts
        (fun e => stops_behindItem (by decide) e.2) (by decide)
        (enclosed_entries.mpr ⟨canonical, enclosed⟩) (by omega) past₁ .missingRightBrace
      refine ⟨.dictionary entries' pos, ?_, ?_⟩
      · rw [pastBracket.head?]
        dsimp only
        rw [bind_ok (advance_apply pastBracket), bind_ok read]
        rfl
      · rw [Expr.bare, Expr.bare, bareEntries_eq, bareEntries_eq, same]
  | unary => exact absurd tight (by simp [Expr.rank])
  | @binary op =>
      have loose : op.rank ≤ 5 := op.rank_le
      exact absurd (Nat.le_trans tight loose) (by decide)
  | @logical op =>
      have loose : op.rank ≤ 1 := op.rank_le
      exact absurd (Nat.le_trans tight loose) (by decide)
  | index => exact absurd tight (by simp [Expr.rank])

theorem accepts_indexed :
    Accepts Expr.bare (size + 1) (indexed inner) (Fits Breaks 7) (Stops 7) := by
  refine indexed_chain.accepts (accepts_primary inside) ?_ ?_ ?_ fun stop =>
    stop.weaken (Nat.le_succ 7)
  · rintro object us b ⟨key, ts, pos, -, -, rfl, -⟩ rest r goesOn
    cases goesOn
    decide
  · rintro object object' us b s s' short ⟨key, ts, p, canonical, written, rfl, rfl⟩ past - same
    obtain ⟨s₁, pastBracket, past₁⟩ := Stream.past_cons.mp past
    obtain ⟨s₂, pastKey, last⟩ := Stream.past_append.mp past₁
    obtain ⟨pos, placed⟩ := position_apply (M := Mistake) s
    rw [List.length_cons, List.length_append] at short
    have stop : Stops 0 key s₂.items := by
      rw [last.items_eq]
      exact stops_of_none rfl
    obtain ⟨key', read, sameKey⟩ := inside (by omega) ⟨canonical, written⟩ pastKey stop
    refine ⟨.index object' key' pos, ?_, by rw [Expr.bare, Expr.bare, same, sameKey]⟩
    unfold indexing?
    rw [bind_ok placed, bind_ok (accept_next _ pastBracket)]
    change (inner >>= fun key => _) s₁ = _
    rw [bind_ok read, bind_ok (expect_next last _)]
    rfl
  · intro object object' s _ stop
    obtain ⟨pos, placed⟩ := position_apply (M := Mistake) s
    have noIndex : s.items.head? ≠ some (.mark .lBracket) := by
      intro next
      rw [← List.cons_head?_tail next] at stop
      exact absurd (stop 7 rfl) (by decide)
    unfold indexing?
    rw [bind_ok placed, bind_ok (accept_other _ noIndex)]
    rfl

omit inside in
theorem unaryOp?_of_spells {t : Token} {op : UnaryOp} (spelled : t ∈ op.spellings) :
    unaryOp? t = some op := by
  cases op <;> simp only [UnaryOp.spellings, List.mem_cons, List.not_mem_nil, or_false] at spelled
  case negate =>
    subst spelled
    rfl
  case not => rcases spelled with rfl | rfl <;> rfl

omit inside in
theorem unaryOp?_of_startsOperand {t : Token} (starts : t.startsOperand = true) :
    unaryOp? t = none := by
  unfold unaryOp?
  split
  · cases starts
  · cases starts
  · cases starts
  · rfl

theorem accepts_unary {bound : Nat} {e : Expr} {ts : List Token} {s s' : Stream Token}
    (enough : ts.length ≤ bound) (short : ts.length ≤ size + 1) (fits : Fits Breaks 6 e ts)
    (past : s.Past ts s') (stop : Stops 6 e s'.items) :
    ∃ e', unary inner bound s = .ok e' s' ∧ e'.bare = e.bare := by
  induction bound generalizing e ts s with
  | zero => exact absurd (List.length_eq_zero_iff.mp (Nat.le_zero.mp enough)) fits.nonempty
  | succ bound ih =>
      obtain ⟨pos, placed⟩ := position_apply (M := Mistake) s
      unfold unary
      rw [bind_ok placed, bind_ok (peek?_apply s)]
      rcases Nat.lt_or_eq_of_le fits.tight with tighter | level
      · have fits : Fits Breaks 7 e ts := ⟨tighter, fits.canonical, fits.spells⟩
        obtain ⟨t, rest, rfl, starts⟩ := Fits.startsOperand e fits
        rw [past.head?, Option.bind_some, unaryOp?_of_startsOperand starts]
        exact accepts_indexed inside short fits past (stop.weaken (Nat.le_succ 6))
      · obtain ⟨tight, canonical, spells⟩ := fits
        cases spells with
        | @unary op operand t ts p spelled written =>
            simp only [Expr.isCanonical, Bool.and_eq_true, decide_eq_true_eq] at canonical
            obtain ⟨s₁, pastSign, past₁⟩ := Stream.past_cons.mp past
            rw [List.length_cons] at enough short
            obtain ⟨operand', read, same⟩ := ih (by omega) (by omega)
              ⟨canonical.1, canonical.2, written⟩ past₁ stop
            refine ⟨.unary op operand' pos, ?_, by rw [Expr.bare, Expr.bare, same]⟩
            rw [past.head?, Option.bind_some, unaryOp?_of_spells spelled]
            dsimp only
            rw [bind_ok (advance_apply pastSign), bind_ok read]
            rfl
        | @binary op =>
            have loose : op.rank ≤ 5 := op.rank_le
            exact absurd (Nat.le_trans tight loose) (by decide)
        | @logical op =>
            have loose : op.rank ≤ 1 := op.rank_le
            exact absurd (Nat.le_trans tight loose) (by decide)
        | literal | name | list | dictionary | grouping | call | index => cases level

end Complete

/-! ### The ranks of binary operators -/

/-- The reader reads the operators of the rank, and nothing where there is none. -/
structure ReadsOperators (rank : Nat) (operator? : Reader (Option (Expr → Expr → Expr))) :
    Prop where
  sound : ∀ s, Reads s operator? (Found (Operator rank))
  complete : ∀ {join sign s s'}, Operator rank join sign → s.Past sign s' →
    ∃ join', operator? s = .ok (some join') s' ∧ ∀ l l' r r', Expr.bare l' = Expr.bare l →
      Expr.bare r' = Expr.bare r → (join' l' r').bare = (join l r).bare
  ends : ∀ {e s}, Stops rank e s.items → operator? s = .ok none s

section Operators

variable {rank : Nat} {s s' : Stream Token}

theorem Operator.ne_of_stops {join : Expr → Expr → Expr} {sign rest : List Token} {e : Expr}
    (spelled : Operator rank join sign) (stop : Stops rank e (sign ++ rest)) : False :=
  absurd (stop rank (spelled.continuation? _ rest)) (Nat.lt_irrefl rank)

theorem binaryOp?_reads {ofToken : Token → Option BinaryOp} (loose : 2 ≤ rank)
    (spells : ∀ t op, ofToken t = some op → op.rank = rank ∧ [t] ∈ op.spellings)
    (single : ∀ op sign, op.rank = rank → sign ∈ op.spellings →
      ∃ t, sign = [t] ∧ ofToken t = some op) : ReadsOperators rank (binaryOp? ofToken) where
  sound s := by
    refine .position fun pos => .peek ?_
    split
    · next op found =>
        obtain ⟨t, next, spelled⟩ := Option.bind_eq_some_iff.mp found
        obtain ⟨level, member⟩ := spells t op spelled
        exact .advance next fun s₁ _ => .give (.binary pos level member)
    · exact .give rfl
  complete := by
    intro join sign s s' operator past
    cases operator with
    | @binary op sign p level spelled =>
        obtain ⟨t, rfl, found⟩ := single op sign level spelled
        obtain ⟨pos, placed⟩ := position_apply (M := Mistake) s
        refine ⟨fun left right => .binary op left right pos, ?_, fun l l' r r' left right => ?_⟩
        · unfold binaryOp?
          rw [bind_ok placed, bind_ok (peek?_apply s), past.head?, Option.bind_some, found]
          exact bind_ok (advance_apply past)
        · rw [Expr.bare, Expr.bare, left, right]
    | @logical op p level =>
        have le := op.rank_le
        omega
  ends := by
    intro e s stop
    obtain ⟨pos, placed⟩ := position_apply (M := Mistake) s
    have none : s.items.head?.bind ofToken = none := by
      cases found : s.items.head?.bind ofToken with
      | none => rfl
      | some op =>
          obtain ⟨t, next, spelled⟩ := Option.bind_eq_some_iff.mp found
          obtain ⟨level, member⟩ := spells t op spelled
          rw [← List.cons_head?_tail next] at stop
          exact (Operator.ne_of_stops (.binary {} level member) stop).elim
    unfold binaryOp?
    rw [bind_ok placed, bind_ok (peek?_apply s), none]
    rfl

theorem logicalOp?_reads (op : LogicalOp) :
    ReadsOperators op.rank (logicalOp? op.keyword op) where
  sound s := by
    refine .position fun pos => .accept (Token.word op.keyword) (fun s₁ _ => ?_) fun _ => .give rfl
    exact .give (.logical pos rfl)
  complete := by
    intro join sign s s' operator past
    cases operator with
    | @binary other _ _ level =>
        exfalso
        cases other <;> cases op <;> cases level
    | @logical other p level =>
        have same : other = op := by
          cases other <;> cases op <;> first | rfl | cases level
        subst same
        obtain ⟨pos, placed⟩ := position_apply (M := Mistake) s
        refine ⟨fun left right => .logical other left right pos, ?_, fun l l' r r' left right => ?_⟩
        · unfold logicalOp?
          rw [bind_ok placed, bind_ok (accept_next _ past)]
          rfl
        · rw [Expr.bare, Expr.bare, left, right]
  ends := by
    intro e s stop
    obtain ⟨pos, placed⟩ := position_apply (M := Mistake) s
    have other : s.items.head? ≠ some (.word op.keyword) := by
      intro next
      rw [← List.cons_head?_tail next] at stop
      exact Operator.ne_of_stops (.logical {} rfl) stop
    unfold logicalOp?
    rw [bind_ok placed, bind_ok (accept_other _ other)]
    rfl

theorem equalityOp?_sound (s : Stream Token) : Reads s equalityOp? (Found (Operator 2)) := by
  have one {t : Token} (op : BinaryOp) (pos : Position) (next : s.items.head? = some t)
      (level : op.rank = 2) (spelled : [t] ∈ op.spellings) :
      Reads (M := Mistake) s (do
        advance
        return some fun left right => Expr.binary op left right pos) (Found (Operator 2)) :=
    .advance next fun s₁ _ => .give (.binary pos level spelled)
  have two {t u : Token} (op : BinaryOp) (pos : Position) (next : s.items.head? = some t)
      (second : s.items.tail.head? = some u) (level : op.rank = 2)
      (spelled : [t, u] ∈ op.spellings) :
      Reads (M := Mistake) s (do
        advance
        advance
        return some fun left right => Expr.binary op left right pos) (Found (Operator 2)) := by
    refine .advance next fun s₁ past => ?_
    rw [past.items_eq] at second
    exact .advance second fun s₂ _ => .give (.binary pos level spelled)
  refine .position fun pos => .peek (.peekSecond ?_)
  split
  · next next => exact one .equal pos next rfl (by decide)
  · next next => exact one .equal pos next rfl (by decide)
  · next next => exact one .equal pos next rfl (by decide)
  · next next => exact one .notEqual pos next rfl (by decide)
  · next next second => exact two .notEqual pos next second rfl (by decide)
  · next next second => exact two .notEqual pos next second rfl (by decide)
  · exact .fail _
  · exact .give rfl

theorem equalityOp?_ends {e : Expr} (stop : Stops 2 e s.items) :
    equalityOp? s = .ok none s := by
  obtain ⟨pos, placed⟩ := position_apply (M := Mistake) s
  have stop₂ (h : continuation? e.endsInName s.items = some 2) : False :=
    absurd (stop 2 h) (by decide)
  unfold equalityOp?
  rw [bind_ok placed, bind_ok (peek?_apply s), bind_ok (peekSecond?_apply s)]
  cases items : s.items with
  | nil => rfl
  | cons t rest =>
      rw [items] at stop₂
      cases t with
      | word k =>
          cases k with
          | isWord | equalsWord => exact (stop₂ rfl).elim
          | notWord =>
              cases rest with
              | nil => rfl
              | cons u rest =>
                  cases u with
                  | word k =>
                      cases k with
                      | isWord | equalsWord => exact (stop₂ rfl).elim
                      | _ => rfl
                  | _ => rfl
          | _ => rfl
      | mark m =>
          cases m with
          | eqEq | notEq | eq => exact (stop₂ rfl).elim
          | _ => rfl
      | _ => rfl

theorem equalityOp?_complete {join : Expr → Expr → Expr} {sign : List Token}
    (operator : Operator 2 join sign) (past : s.Past sign s') :
    ∃ join', equalityOp? s = .ok (some join') s' ∧ ∀ l l' r r', Expr.bare l' = Expr.bare l →
      Expr.bare r' = Expr.bare r → (join' l' r').bare = (join l r).bare := by
  obtain ⟨pos, placed⟩ := position_apply (M := Mistake) s
  have items := past.items_eq
  cases operator with
  | @binary op _ p level spelled =>
      refine ⟨fun left right => .binary op left right pos, ?_, fun l l' r r' left right => ?_⟩
      · unfold equalityOp?
        rw [bind_ok placed, bind_ok (peek?_apply s), bind_ok (peekSecond?_apply s), items]
        cases op with
        | equal =>
            simp only [BinaryOp.spellings, List.mem_cons, List.not_mem_nil, or_false] at spelled
            rcases spelled with rfl | rfl | rfl <;> exact bind_ok (advance_apply past)
        | notEqual =>
            simp only [BinaryOp.spellings, List.mem_cons, List.not_mem_nil, or_false] at spelled
            rcases spelled with rfl | rfl | rfl
            · exact bind_ok (advance_apply past)
            · obtain ⟨s₁, first, second⟩ := Stream.past_cons.mp past
              exact (bind_ok (advance_apply first)).trans (bind_ok (advance_apply second))
            · obtain ⟨s₁, first, second⟩ := Stream.past_cons.mp past
              exact (bind_ok (advance_apply first)).trans (bind_ok (advance_apply second))
        | add | subtract | multiply | divide | remainder | less | lessEqual | greater
        | greaterEqual => cases level
      · rw [Expr.bare, Expr.bare, left, right]
  | @logical op p level =>
      have le := op.rank_le
      omega

theorem equalityOp?_reads : ReadsOperators 2 equalityOp? :=
  ⟨equalityOp?_sound, equalityOp?_complete, equalityOp?_ends⟩

theorem equalityOp?_refuses (next : s.items.head? = some (.mark .eq)) :
    ∃ place s', equalityOp? s = .error ⟨.equalsForEquality, place⟩ s' := by
  obtain ⟨pos, placed⟩ := position_apply (M := Mistake) s
  refine ⟨pos, s, ?_⟩
  unfold equalityOp?
  rw [bind_ok placed, bind_ok (peek?_apply s), bind_ok (peekSecond?_apply s), next]
  exact bind_ok placed

theorem factorOp?_reads : ReadsOperators 5 (binaryOp? factorOp?) := by
  refine binaryOp?_reads (by decide) (fun t op found => ?_) fun op sign level spelled => ?_
  · unfold factorOp? at found
    split at found <;> cases found <;> decide
  · cases op <;> cases level <;> simp only [BinaryOp.spellings, List.mem_singleton] at spelled <;>
      exact ⟨_, spelled, rfl⟩

theorem termOp?_reads : ReadsOperators 4 (binaryOp? termOp?) := by
  refine binaryOp?_reads (by decide) (fun t op found => ?_) fun op sign level spelled => ?_
  · unfold termOp? at found
    split at found <;> cases found <;> decide
  · cases op <;> cases level <;> simp only [BinaryOp.spellings, List.mem_singleton] at spelled <;>
      exact ⟨_, spelled, rfl⟩

theorem comparisonOp?_reads : ReadsOperators 3 (binaryOp? comparisonOp?) := by
  refine binaryOp?_reads (by decide) (fun t op found => ?_) fun op sign level spelled => ?_
  · unfold comparisonOp? at found
    split at found <;> cases found <;> decide
  · cases op <;> cases level <;> simp only [BinaryOp.spellings, List.mem_singleton] at spelled <;>
      exact ⟨_, spelled, rfl⟩

end Operators

/-- The reader reads the expressions of the rank with at most so many tokens, and no others. -/
structure ReadsRank (size rank : Nat) (r : Reader Expr) : Prop where
  sound : ∀ s, Reads s r (Fits Breaks rank)
  complete : Accepts Expr.bare size r (Fits Breaks rank) (Stops rank)

section Ranks

variable {size rank : Nat} {operator? : Reader (Option (Expr → Expr → Expr))}
  {operand inner : Reader Expr}

theorem ReadsOperators.goesOn_halts {join : Expr → Expr → Expr} {sign : List Token}
    (operator : Operator rank join sign) (l r : Expr) (rest : List Token)
    (stop : Stops (rank + 1) (join l r) rest) : Stops (rank + 1) r rest := by
  unfold Stops at *
  rwa [operator.endsInName l r] at stop

theorem ReadsOperators.readsRank (operators : ReadsOperators rank operator?) (le : rank ≤ 5)
    (operands : ReadsRank size (rank + 1) operand) :
    ReadsRank size rank (infixLeft operator? operand) where
  sound s := reads_infixLeft (fits_chain le) operators.sound operands.sound s
  complete := accepts_infixLeft (fits_chain le) operators.complete operands.complete
    Operator.stops ReadsOperators.goesOn_halts operators.ends fun stop =>
      stop.weaken (Nat.le_succ rank)

theorem unary_readsRank (inside : ReadsRank size 0 inner) :
    ReadsRank (size + 1) 6 (do unary inner (← remaining)) where
  sound s := by
    have sound (s : Stream Token) : Reads s inner Whole := fits_zero ▸ inside.sound s
    exact .remaining fun bound => reads_unary sound bound
  complete := by
    have complete : Accepts Expr.bare size inner Whole (Stops 0) := fits_zero ▸ inside.complete
    intro e ts s s' short fits past stop
    rw [bind_ok (remaining_apply s)]
    refine accepts_unary complete ?_ short fits past stop
    rw [past.length_eq]
    exact Nat.le_add_right _ _

theorem comparison_readsRank (inside : ReadsRank size 0 inner) :
    ReadsRank (size + 1) 3 (comparison inner) :=
  comparisonOp?_reads.readsRank (by decide) <| termOp?_reads.readsRank (by decide) <|
    factorOp?_reads.readsRank (by decide) (unary_readsRank inside)

theorem disjunction_readsRank (inside : ReadsRank size 0 inner) :
    ReadsRank (size + 1) 0 (disjunction inner) :=
  (logicalOp?_reads .or).readsRank (by decide) <|
    (logicalOp?_reads .and).readsRank (by decide) <|
      equalityOp?_reads.readsRank (by decide) (comparison_readsRank inside)

end Ranks

theorem nested_readsRank (bound : Nat) : ReadsRank bound 0 (nested bound) := by
  induction bound with
  | zero =>
      refine ⟨fun s => .peek (.fail _), fun e ts s s' short fits past stop => ?_⟩
      exact absurd (List.length_eq_zero_iff.mp (Nat.le_zero.mp short)) fits.nonempty
  | succ bound ih => exact disjunction_readsRank ih

/-- A single equals sign behind an expression is refused. -/
theorem nested_rejects (bound : Nat) :
    Rejects (bound + 1) (nested (bound + 1)) (Fits Breaks 0)
      (fun _ rest => rest.head? = some (.mark .eq)) .equalsForEquality := by
  have inside := nested_readsRank bound
  have comparisons := comparison_readsRank inside
  have equalities := equalityOp?_reads.readsRank (by decide) comparisons
  have conjunctions := (logicalOp?_reads .and).readsRank (by decide) equalities
  have loose {e : Expr} {rest : List Token} (next : rest.head? = some (.mark .eq)) :
      Stops 3 e rest := by
    intro r goesOn
    rw [← List.cons_head?_tail next] at goesOn
    cases goesOn
    decide
  have atEquality : Rejects (bound + 1) (equality (nested bound)) (Fits Breaks 2)
      (fun _ rest => rest.head? = some (.mark .eq)) .equalsForEquality :=
    rejects_at_operator (fits_chain (by decide)) equalityOp?_reads.complete comparisons.complete
      Operator.stops ReadsOperators.goesOn_halts equalityOp?_refuses loose fun _ => nofun
  have atConjunction := rejects_at_operand (fits_chain (by decide)) (logicalOp?_reads .and).complete
    equalities.complete Operator.stops ReadsOperators.goesOn_halts atEquality
    fun _ _ _ _ next => next
  exact rejects_at_operand (fits_chain (by decide)) (logicalOp?_reads .or).complete
    conjunctions.complete Operator.stops ReadsOperators.goesOn_halts atConjunction
    fun _ _ _ _ next => next

/-- The reader of expressions reads their grammar. Every printing of a canonical expression is read
back, up to places, unless what follows goes on with the expression; a single equals sign is refused
there. Whatever is read is canonical, and the tokens that were read are a printing but for the line
breaks in brackets. There is a printing of every expression. -/
theorem expression_reads_grammar :
    (∀ e ts s s', Expr.isCanonical e = true → Prints e ts → Stream.Past s ts s' →
      continuation? e.endsInName s'.items = none →
      ∃ e', expression s = .ok e' s' ∧ e'.bare = e.bare) ∧
    (∀ e ts s s', Expr.isCanonical e = true → Prints e ts → Stream.Past s ts s' →
      s'.items.head? = some (.mark .eq) →
      ∃ place s'', expression s = .error ⟨.equalsForEquality, place⟩ s'') ∧
    (∀ s e s', expression s = .ok e s' → e.isCanonical = true ∧
      ∃ ts, s.Past ts s' ∧ Spells Breaks e ts ∧ Prints e (ts.filter (· ≠ .newline))) ∧
    ∀ e, Prints e e.print := by
  have written {e : Expr} {ts : List Token} (canonical : e.isCanonical = true)
      (prints : Prints e ts) : Fits Breaks 0 e ts :=
    ⟨Nat.zero_le _, canonical, prints.spells⟩
  have enough {ts : List Token} {s s' : Stream Token} (past : s.Past ts s') :
      ts.length ≤ s.ahead.length := by
    rw [past.length_eq]
    exact Nat.le_add_right _ _
  refine ⟨?_, ?_, ?_, prints_print⟩
  · intro e ts s s' canonical prints past stop
    unfold expression
    rw [bind_ok (remaining_apply s)]
    exact (nested_readsRank _).complete (enough past) (written canonical prints) past
      (stops_of_none stop)
  · intro e ts s s' canonical prints past next
    unfold expression
    rw [bind_ok (remaining_apply s)]
    have fits := written canonical prints
    have some : 0 < ts.length := List.length_pos_iff.mpr fits.nonempty
    have within := enough past
    obtain ⟨bound, all⟩ : ∃ bound, s.ahead.length = bound + 1 :=
      Nat.exists_eq_succ_of_ne_zero (Nat.ne_of_gt (Nat.lt_of_lt_of_le some within))
    rw [all] at within ⊢
    exact nested_rejects bound within fits past next
  · intro s e s' ended
    unfold expression at ended
    rw [bind_ok (remaining_apply s)] at ended
    obtain ⟨ts, fits, past⟩ := (nested_readsRank _).sound s ended
    exact ⟨fits.canonical, ts, past, fits.spells, fits.spells.prints⟩

/-- The tokens of `not a equals b[2]`, read as a negation on the left of an equality. -/
theorem reads_negated_equality :
    let tokens : List Token := [.word .notWord, .name "a", .word .equalsWord, .name "b",
      .mark .lBracket, .number 2, .mark .rBracket]
    let s : Stream Token := ⟨none, tokens.map (⟨·, {}⟩), {}⟩
    let e : Expr := .binary .equal (.unary .not (.name "a" {}) {})
      (.index (.name "b" {}) (.literal (.number 2) {}) {}) {}
    ∃ e' s', expression s = .ok e' s' ∧ e'.bare = e := by
  intro tokens s e
  obtain ⟨s', past, rest⟩ := Stream.exists_past (show s.items = tokens ++ [] from rfl)
  have canonical : e.isCanonical = true := rfl
  have negated : Prints (.unary .not (.name "a" {}) {}) [.word .notWord, .name "a"] :=
    .unary {} (by decide) (.name "a" {})
  have indexed : Prints (.index (.name "b" {}) (.literal (.number 2) {}) {})
      [.name "b", .mark .lBracket, .number 2, .mark .rBracket] :=
    .index {} (.name "b" {}) (.literal (.number 2) {})
  have sign : [Token.word .equalsWord] ∈ BinaryOp.equal.spellings := by decide
  have prints : Prints e tokens := .binary {} sign negated indexed
  have stop : continuation? e.endsInName s'.items = none := by
    rw [rest]
    rfl
  obtain ⟨e', read, same⟩ := expression_reads_grammar.1 e tokens s s' canonical prints past stop
  exact ⟨e', s', read, same⟩

end Walkthrough.JikiScript.Reader
