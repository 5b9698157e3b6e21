import Walkthrough.Proofs.JikiScriptBlocks

/-! The reader of JikiScript statements reads the grammar of blocks, and what that says of the
words in a source. A statement ends with its line, and the last line of a source may lack its line
break; a block is read up to its `end`, or up to an `else` where a branch may follow. -/

namespace Walkthrough.JikiScript
namespace Reader

open Walkthrough.Parser

variable {α β : Type} {s s' : Stream Token}

/-- The reader has read tokens of what it gives, or all that there were, and a line break would make
them tokens of it. -/
def Ends (s : Stream Token) (r : Reader α) (G : α → List Token → Prop) : Prop :=
  Reads s r fun a ts => G a ts ∨ s.items = ts ∧ G a (ts ++ [.newline])

namespace Ends

variable {x : Reader α} {k : α → Reader β} {r : Reader β} {G : α → List Token → Prop}
  {H : β → List Token → Prop}

theorem strict {a : α} {ts : List Token} (written : G a ts ∨ s.items = ts ∧ G a (ts ++ [.newline]))
    (past : s.Past ts s') (more : s'.items ≠ []) : G a ts := by
  rcases written with written | ⟨all, -⟩
  · exact written
  · rw [past.items_eq] at all
    exact absurd (List.append_right_eq_self.mp all) more

theorem behind {ts : List Token} (past : s.Past ts s') (h : Ends s' r fun b us => H b (ts ++ us)) :
    Reads s' r fun b us => H b (ts ++ us) ∨ s.items = ts ++ us ∧ H b (ts ++ us ++ [.newline]) := by
  intro b s'' ended
  obtain ⟨us, written, past'⟩ := h ended
  refine ⟨us, ?_, past'⟩
  rcases written with written | ⟨all, written⟩
  · exact Or.inl written
  · refine Or.inr ⟨by rw [past.items_eq, all], ?_⟩
    rw [List.append_assoc]
    exact written

theorem andThen (hx : Reads s x G)
    (hk : ∀ a ts s', G a ts → s.Past ts s' → Ends s' (k a) fun b us => H b (ts ++ us)) :
    Ends s (x >>= k) H :=
  Reads.andThen hx fun a ts s' g past => behind past (hk a ts s' g past)

theorem advance {k : Unit → Reader β} {t : Token} (next : s.items.head? = some t)
    (h : ∀ s', s.Past [t] s' → Ends s' (k ()) fun b us => H b (t :: us)) :
    Ends s (Parser.advance >>= k) H :=
  Reads.advance next fun s' past => behind past (h s' past)

theorem accept {k : Bool → Reader β} (t : Token)
    (taken : ∀ s', s.Past [t] s' → Ends s' (k true) fun b us => H b (t :: us))
    (other : s.items.head? ≠ some t → Ends s (k false) H) : Ends s (Parser.accept t >>= k) H :=
  Reads.accept t (fun s' past => behind past (taken s' past)) other

theorem isNext {k : Bool → Reader β} (t : Token) (h : ∀ found, Ends s (k found) H) :
    Ends s (Parser.isNext t >>= k) H :=
  Reads.isNext t (fun _ => h true) fun _ => h false

theorem weaken {G' : α → List Token → Prop} (h : Ends s x G) (weaker : ∀ a ts, G a ts → G' a ts) :
    Ends s x G' := by
  intro a s' ended
  obtain ⟨ts, written, past⟩ := h ended
  exact ⟨ts, written.imp (weaker a ts) (And.imp_right (weaker a _)), past⟩

theorem map {f : α → β} (hx : Ends s x G) (hk : ∀ a ts, G a ts → H (f a) ts) :
    Ends s (x >>= fun a => pure (f a)) H := by
  refine Reads.andThen hx fun a ts s' written _ => .give ?_
  rw [List.append_nil]
  rcases written with written | ⟨all, written⟩
  · exact Or.inl (hk a ts written)
  · exact Or.inr ⟨all, hk a _ written⟩

end Ends

/-! ### Lines -/

theorem reads_expression : Reads s expression (Spells Breaks) := by
  intro e s' ran
  unfold expression at ran
  rw [bind_ok (remaining_apply s)] at ran
  obtain ⟨ts, fits, past⟩ := (nested_readsRank _).sound s ran
  exact ⟨ts, fits.spells, past⟩

theorem reads_endOfLine :
    Reads s endOfLine fun _ ts => ts = [.newline] ∨ s.items = [] ∧ ts = [] := by
  refine .accept Token.newline (fun s' _ => .give (Or.inl rfl)) fun _ => ?_
  refine .atEnd (fun ended => .give (Or.inr ⟨ended, rfl⟩)) fun _ => ?_
  intro _ _ ended
  cases ended

theorem Ends.line {a : α} {H : α → List Token → Prop} (h : H a [.newline]) :
    Ends s (endOfLine >>= fun _ => pure a) H := by
  refine Reads.andThen reads_endOfLine fun _ ts s' ended _ => .give ?_
  rcases ended with rfl | ⟨none, rfl⟩
  · exact Or.inl h
  · exact Or.inr ⟨none, h⟩

theorem reads_expectName (mistake : Mistake) :
    Reads s (expectName mistake) fun name ts => ts = [.name name] := by
  refine .peek ?_
  split
  · next name next => exact .advance next fun s' _ => .give rfl
  · exact .fail _

theorem reads_variableName (missing : Mistake) :
    Reads s (variableName missing) fun _ ts => Flat ts := by
  refine .peek ?_
  split
  · exact .fail _
  · next first next =>
      refine .advance next fun s₁ _ => .peek ?_
      split
      · exact .fail _
      · exact .give (flat_nil.cons rfl)
  · exact .fail _

theorem reads_expectTo (name : String) : Reads s (expectTo name) fun _ ts => Flat ts := by
  refine .isNext (Token.mark .eq) (fun _ => ?_) fun _ => ?_
  · intro _ _ ended
    cases ended
  · intro _ s' ended
    obtain ⟨ts, rfl, past⟩ := reads_expect (.word .toWord) (.missingTo name) ended
    exact ⟨_, flat_nil.cons rfl, past⟩

theorem reads_indexes (bound : Nat) : Reads s (indexes bound) fun _ ts => Flat ts := by
  induction bound generalizing s with
  | zero => exact .give flat_nil
  | succ bound ih =>
      refine .accept (Token.mark .lBracket) (fun s₁ _ => ?_) fun _ => .give flat_nil
      refine .andThen reads_expression fun key ts s₂ spelled _ => ?_
      refine .andThen (reads_expect _ _) fun _ closing s₃ closes _ => ?_
      refine .andThen ih fun keys us s₄ flat _ => .give ?_
      rw [closes, List.append_nil]
      exact ((Spells.flat key spelled).append (flat.cons rfl)).cons rfl

/-- A statement of one line, but for its line break. -/
def Line (s : Stmt) (ts : List Token) : Prop :=
  s.isLine = true ∧ Flat ts

theorem reads_setStatement (pos : Position) : Reads s (setStatement pos) Line := by
  refine .andThen (reads_variableName _) fun name ts s₁ named _ => ?_
  refine .andThen (reads_expectTo name) fun _ us s₂ led _ => ?_
  refine .andThen reads_expression fun value vs s₃ spelled _ => .give ⟨rfl, ?_⟩
  rw [List.append_nil]
  exact named.append (led.append (Spells.flat value spelled))

theorem reads_changeStatement (pos : Position) : Reads s (changeStatement pos) Line := by
  refine .position fun namePos => ?_
  refine .andThen (reads_variableName _) fun name ts s₁ named _ => .remaining fun bound => ?_
  refine .andThen (reads_indexes bound) fun keys us s₂ indexed _ => ?_
  refine .andThen (reads_expectTo name) fun _ vs s₃ led _ => ?_
  refine .andThen reads_expression fun value ws s₄ spelled _ => ?_
  have flat : Flat (ts ++ (us ++ (vs ++ (ws ++ [])))) := by
    rw [List.append_nil]
    exact named.append (indexed.append (led.append (Spells.flat value spelled)))
  split
  · exact .give ⟨rfl, flat⟩
  · exact .give ⟨rfl, flat⟩

theorem reads_returnStatement (pos : Position) : Reads s (returnStatement pos) Line := by
  refine .isNext Token.newline (fun _ => .give ⟨rfl, flat_nil⟩) fun _ => ?_
  refine .andThen reads_expression fun value ts s₁ spelled _ => .give ⟨rfl, ?_⟩
  rw [List.append_nil]
  exact Spells.flat value spelled

theorem reads_logged (pos : Position) :
    Reads s (do return Stmt.log (← expression) pos) Line := by
  refine .andThen reads_expression fun value ts s₁ spelled _ => .give ⟨rfl, ?_⟩
  rw [List.append_nil]
  exact Spells.flat value spelled

theorem reads_word {made : Stmt} (isLine : made.isLine = true) :
    Reads s (pure made : Reader Stmt) Line :=
  .give ⟨isLine, flat_nil⟩

theorem Ends.onOneLine {read : Reader Stmt} {t : Token} (h : Reads s read Line)
    (plain : t.isBlockWord = false) :
    Ends s (onOneLine read) fun made ts => Writes (.statement made) (t :: ts) := by
  refine .andThen h fun made ts s₁ ⟨isLine, flat⟩ _ => .line ?_
  exact .line isLine (List.cons_ne_nil t ts) (flat.cons plain)

/-! ### Blocks -/

/-- What a block has read: its body up to its `end`, or up to an `else` that follows. -/
def Shuts (s : Stream Token) (kind : BlockKind) (body : List Stmt) (ts : List Token) : Prop :=
  ∃ us, Writes (.body body) us ∧ (ts = us ++ [.word .endWord] ∨
    BlockKind.hasBranches kind = true ∧ ts = us ∧ ∃ rest, s.items = us ++ .word .elseWord :: rest)

namespace Shuts

variable {kind : BlockKind} {body : List Stmt} {ts : List Token}

theorem nonempty (h : Shuts s kind body ts) (past : s.Past ts s') : s.items ≠ [] := by
  obtain ⟨us, -, rfl | ⟨-, rfl, rest, items⟩⟩ := h
  · rw [past.items_eq]
    simp
  · rw [items]
    simp

theorem closed (h : Shuts s kind body ts) (past : s.Past ts s')
    (alone : BlockKind.hasBranches kind = true → s'.items.head? ≠ some (.word .elseWord)) :
    ∃ us, Writes (.body body) us ∧ ts = us ++ [.word .endWord] := by
  obtain ⟨us, written, closes | ⟨branches, rfl, rest, items⟩⟩ := h
  · exact ⟨us, written, closes⟩
  · rw [past.items_eq, List.append_cancel_left_eq] at items
    rw [items] at alone
    exact absurd rfl (alone branches)

/-- Where another branch follows, an `end` may have been passed over. -/
theorem parted (h : Shuts s kind body ts) :
    ∃ us close, Writes (.body body) us ∧ Parts close ∧ ts = us ++ close := by
  obtain ⟨us, written, closes | ⟨-, rfl, -⟩⟩ := h
  · exact ⟨us, _, written, Or.inr rfl, closes⟩
  · exact ⟨ts, [], written, Or.inl rfl, (List.append_nil ts).symm⟩

end Shuts

section Blocks

variable {inner : Reader Stmt}
  (inside : ∀ s, Ends s inner fun made ts => Writes (.statement made) ts)
include inside

theorem reads_block (kind : BlockKind) : Reads s (block inner kind) (Shuts s kind) := by
  refine .remaining fun bound => ?_
  generalize bound + 1 = bound
  induction bound generalizing s with
  | zero => exact .fail _
  | succ bound ih =>
      refine .andThen reads_skipNewlines fun _ breaks s₁ isBreaks past => .peek ?_
      split
      · next next => exact .advance next fun s₂ _ => .give ⟨breaks, .none isBreaks, Or.inl rfl⟩
      · exact .fail _
      · split
        · next branch =>
            rw [Bool.and_eq_true, decide_eq_true_eq] at branch
            obtain ⟨next, branches⟩ := branch
            refine .give ⟨breaks, .none isBreaks, Or.inr ⟨branches, List.append_nil _, ?_⟩⟩
            exact ⟨s₁.items.tail, by rw [past.items_eq, List.cons_head?_tail next]⟩
        · refine .andThen (inside s₁) fun first ts s₂ ended past' => ?_
          refine .andThen ih fun rest us s₃ shuts past'' => .give ?_
          -- the rest of the block is not empty, so the statement has its line break
          have written : Writes (.statement first) ts :=
            Ends.strict (G := fun made ts => Writes (.statement made) ts) ended past'
              (shuts.nonempty past'')
          obtain ⟨vs, others, closes⟩ := shuts
          refine ⟨breaks ++ (ts ++ vs), .next isBreaks written others, ?_⟩
          rw [List.append_nil]
          rcases closes with rfl | ⟨branches, rfl, after, items⟩
          · exact Or.inl (by simp)
          · refine Or.inr ⟨branches, rfl, after, ?_⟩
            rw [past.items_eq, past'.items_eq, items]
            simp

theorem Ends.blockBehindLine {kind : BlockKind} {k : List Stmt → Reader β}
    {H : β → List Token → Prop}
    (h : ∀ body ts s₁ s', Shuts s₁ kind body ts → s₁.Past ts s' →
      Ends s' (k body) fun b us => H b (.newline :: (ts ++ us))) :
    Ends s (endOfLine >>= fun _ => block inner kind >>= k) H := by
  refine .andThen reads_endOfLine fun _ eol s₁ ended past => ?_
  refine .andThen (reads_block inside kind) fun body ts s' shuts past' => ?_
  rcases ended with rfl | ⟨none, rfl⟩
  · exact h body ts s₁ s' shuts past'
  · rw [past.items_eq] at none
    exact absurd none (shuts.nonempty past')

omit inside in
theorem Ends.behindDo {opened : BlockKind} {k : Unit → Reader β} {H : β → List Token → Prop}
    (h : ∀ s', Ends s' (endOfLine >>= k) fun b us => H b (.word .doWord :: us)) :
    Ends s (expectDo opened >>= k) H := by
  unfold expectDo
  rw [bind_assoc]
  refine .andThen (reads_expect _ _) fun _ opening s' opens _ => ?_
  subst opens
  exact h s'

theorem Ends.blockBehindDo {kind opened : BlockKind} {k : List Stmt → Reader β}
    {H : β → List Token → Prop}
    (h : ∀ body ts s₁ s', Shuts s₁ kind body ts → s₁.Past ts s' →
      Ends s' (k body) fun b us => H b (.word .doWord :: .newline :: (ts ++ us))) :
    Ends s (expectDo opened >>= fun _ => block inner kind >>= k) H :=
  .behindDo fun _ => .blockBehindLine inside h

section Bodied

variable {kind : BlockKind} {make : List Stmt → Stmt} {H : Stmt → List Token → Prop}

theorem Ends.bodyBehindLine (plain : BlockKind.hasBranches kind = false)
    (h : ∀ body us, Writes (.body body) us →
      H (make body) (.newline :: (us ++ [.word .endWord, .newline]))) :
    Ends s (do endOfLine; let body ← block inner kind; endOfLine; return make body) H := by
  refine .blockBehindLine inside fun body ts s₁ s₂ shuts past => .line ?_
  obtain ⟨us, written, rfl⟩ := shuts.closed past fun branches => by
    rw [plain] at branches
    cases branches
  rw [List.append_assoc]
  exact h body us written

theorem Ends.bodyBehindDo {opened : BlockKind} (plain : BlockKind.hasBranches kind = false)
    (h : ∀ body us, Writes (.body body) us →
      H (make body) (.word .doWord :: .newline :: (us ++ [.word .endWord, .newline]))) :
    Ends s (do expectDo opened; let body ← block inner kind; endOfLine; return make body) H :=
  .behindDo fun _ => .bodyBehindLine inside plain h

end Bodied

theorem ends_conditional (bound : Nat) (pos : Position) :
    Ends s (conditional inner bound pos) fun made ts => Writes (.branches made) ts := by
  induction bound generalizing s pos with
  | zero => exact Reads.peek (.fail _)
  | succ bound ih =>
      refine .andThen reads_expression fun condition header s₁ spelled _ => ?_
      refine .blockBehindDo inside fun onTrue ts s₂ s₃ shuts past => ?_
      refine .accept (Token.word .elseWord) (fun s₄ _ => ?_) fun other => ?_
      · obtain ⟨body, close, written, parts, rfl⟩ := shuts.parted
        refine Reads.position fun elsePos => ?_
        refine Ends.accept (Token.word .ifWord) (fun s₅ _ => ?_) fun _ => ?_
        · refine .map (ih elsePos) fun chained us written' => ?_
          have made := Writes.further pos spelled written parts written'
          simpa using made
        · refine .blockBehindDo inside fun onFalse us s₅ s₆ shuts' past' => ?_
          refine Reads.isNext (Token.word .elseWord) (fun _ => ?_) fun other => ?_
          · intro _ _ ended
            cases ended
          · obtain ⟨body', written', rfl⟩ := shuts'.closed past' fun _ => other
            refine Ends.line ?_
            have made := Writes.otherwise pos spelled written parts written'
            simpa using made
      · obtain ⟨body, written, rfl⟩ := shuts.closed past fun _ => other
        refine .line ?_
        have made := Writes.last pos spelled written
        simpa using made

theorem ends_repeatStatement (pos : Position) : Ends s (repeatStatement inner pos)
    fun made ts => Writes (.statement made) (.word .repeatWord :: ts) := by
  refine .andThen reads_expression fun count ts s₁ spelled _ => ?_
  refine .andThen (reads_expect _ _) fun _ times s₂ timed _ => ?_
  subst timed
  refine .bodyBehindDo inside rfl fun body us written => ?_
  have made := Writes.bodied (Header.repeatTimes body pos spelled) written
  simpa using made

theorem ends_forEachStatement (pos : Position) : Ends s (forEachStatement inner pos)
    fun made ts => Writes (.statement made) (.word .forWord :: ts) := by
  refine .andThen (reads_expect _ _) fun _ _ s₁ each _ => ?_
  refine .andThen (reads_expectName _) fun element _ s₂ named _ => ?_
  refine .andThen (reads_expect _ _) fun _ _ s₃ within _ => ?_
  refine .andThen reads_expression fun iterable ts s₄ spelled _ => ?_
  subst each named within
  refine .bodyBehindDo inside rfl fun body us written => ?_
  exact Writes.bodied (Header.forEach element body pos spelled) written

theorem ends_plainBlock (pos : Position) : Ends s (plainBlock inner pos)
    fun made ts => Writes (.statement made) (.word .doWord :: ts) :=
  .bodyBehindLine inside rfl fun body _ written => Writes.bodied (Header.block body pos) written

omit inside in
theorem reads_parameters (bound : Nat) : Reads s (parameters bound)
    (Separated (· = []) fun param us => us = [.name param]) := by
  induction bound generalizing s with
  | zero =>
      refine .andThen (reads_expectName _) fun param ts s₁ named _ => .give ?_
      exact .one named rfl
  | succ bound ih =>
      refine .andThen (reads_expectName _) fun param ts s₁ named _ => ?_
      refine .accept (Token.mark .comma) (fun s₂ _ => ?_) fun _ => .peek ?_
      · refine .andThen ih fun rest us s₃ others _ => .give ?_
        rw [List.append_nil]
        exact @Separated.more _ _ _ param rest ts [] [] us named rfl rfl others
      · split
        · exact .fail _
        · exact .give (.one named rfl)

theorem ends_functionStatement (topLevel : Bool) (pos : Position) :
    Ends s (functionStatement inner topLevel pos)
      fun made ts => Writes (.statement made) (.word .functionWord :: ts) := by
  refine .andThen (reads_expectName _) fun name _ s₁ named _ => ?_
  subst named
  cases topLevel with
  | false =>
      intro made s₂ ended
      cases ended
  | true =>
      have behind {params : List String} {ts : List Token} (parameters : Parameters params ts)
          (s : Stream Token) :
          Ends s (do
            expectDo .functionBody
            let body ← block inner .functionBody
            endOfLine
            return .function name params body pos)
          fun made us =>
            Writes (.statement made) (.word .functionWord :: .name name :: (ts ++ us)) := by
        refine .bodyBehindDo inside rfl fun body us written => ?_
        exact Writes.bodied (Header.function name body pos parameters) written
      refine .accept (Token.word .withWord) (fun s₂ _ => ?_) fun _ => ?_
      · refine .isNext (Token.word .doWord) fun _ => .isNext Token.newline fun _ => ?_
        refine Reads.remaining fun bound => ?_
        refine Ends.andThen (reads_parameters bound) fun params ts s₃ separated _ => ?_
        exact behind (.some separated) s₃
      · refine .isNext (Token.word .doWord) fun _ => .isNext Token.newline fun _ => ?_
        dsimp only
        rw [if_neg Bool.false_ne_true]
        split
        · exact behind .none s₁
        · intro _ _ ended
          cases ended

end Blocks

/-- Whatever is read as a statement is written as one, with blocks nested at most so deep. -/
theorem ends_statement (bound : Nat) (topLevel : Bool) (s : Stream Token) :
    Ends s (statement bound topLevel) fun made ts => Writes (.statement made) ts := by
  induction bound generalizing topLevel s with
  | zero => exact Reads.peek (.fail _)
  | succ bound ih =>
      have inside := ih false
      refine Reads.position fun pos => .peek ?_
      split
      · next next => exact Ends.advance next fun s₁ _ => .onOneLine (reads_setStatement pos) rfl
      · next next => exact Ends.advance next fun s₁ _ => .onOneLine (reads_changeStatement pos) rfl
      · next next => exact Ends.advance next fun s₁ _ => .onOneLine (reads_logged pos) rfl
      · next next =>
          refine Ends.advance next fun s₁ _ => Reads.remaining fun bound => ?_
          refine Ends.weaken (ends_conditional inside (bound + 1) pos) fun made ts branches => ?_
          exact .chain branches
      · next next => exact Ends.advance next fun s₁ _ => ends_repeatStatement inside pos
      · next next => exact Ends.advance next fun s₁ _ => ends_forEachStatement inside pos
      · next next => exact Ends.advance next fun s₁ _ => ends_plainBlock inside pos
      · next next => exact Ends.advance next fun s₁ _ => ends_functionStatement inside topLevel pos
      · next next => exact Ends.advance next fun s₁ _ => .onOneLine (reads_returnStatement pos) rfl
      · next next => exact Ends.advance next fun s₁ _ => .onOneLine (reads_word rfl) rfl
      · next next => exact Ends.advance next fun s₁ _ => .onOneLine (reads_word rfl) rfl
      · next next => exact Ends.advance next fun s₁ _ => .onOneLine (reads_word rfl) rfl
      · refine Ends.andThen (G := fun made ts => Line made ts ∧ ts ≠ []) ?_ ?_
        · refine .andThen reads_expression fun value ts s₁ spelled _ => .give ?_
          obtain ⟨t, rest, rfl, -⟩ := Spells.starts value spelled
          rw [List.append_nil]
          exact ⟨⟨rfl, Spells.flat value spelled⟩, List.cons_ne_nil t rest⟩
        · rintro made ts s₁ ⟨⟨isLine, flat⟩, nonempty⟩ _
          exact .line (.line isLine nonempty flat)

/-- A program is written with all of the tokens; the last line break may be missing. -/
def Exhausts (s : Stream Token) (program : Program) (ts : List Token) : Prop :=
  s.items = ts ∧
    (Writes (.body program) ts ∨ ts ≠ [] ∧ Writes (.body program) (ts ++ [.newline]))

theorem reads_statements (bound : Nat) (enough : s.items.length ≤ bound) :
    Reads s (statements bound) (Exhausts s) := by
  induction bound generalizing s with
  | zero =>
      have none : s.items = [] := List.length_eq_zero_iff.mp (Nat.le_zero.mp enough)
      exact .give ⟨none, Or.inl (.none breaks_nil)⟩
  | succ bound ih =>
      refine .atEnd (fun none => .give ⟨none, Or.inl (.none breaks_nil)⟩) fun _ => ?_
      refine .accept Token.newline (fun s₁ past => ?_) fun _ => .remaining fun depth => ?_
      · have left := past.items_eq
        rw [left, List.length_append, List.length_singleton] at enough
        intro program s₂ ended
        obtain ⟨ts, ⟨all, written⟩, past'⟩ := ih (by omega) ended
        refine ⟨ts, ⟨by rw [left, all]; rfl, ?_⟩, past'⟩
        rcases written with written | ⟨-, written⟩
        · exact Or.inl written.behindBreak
        · exact Or.inr ⟨List.cons_ne_nil _ _, written.behindBreak⟩
      · refine .andThen (ends_statement depth true s) fun first ts s₁ ended past => ?_
        have left := past.items_eq
        have some : ts ≠ [] := by
          rintro rfl
          rcases ended with written | ⟨-, written⟩
          all_goals exact absurd (Writes.two_le_length written) (by decide)
        have fewer : s₁.items.length ≤ bound := by
          have taken : 0 < ts.length := List.length_pos_iff.mpr some
          rw [left, List.length_append] at enough
          omega
        refine .andThen (ih fewer) fun rest us s₂ exhausts past' => .give ?_
        obtain ⟨all, written⟩ := exhausts
        refine ⟨by rw [left, all, List.append_nil], ?_⟩
        rw [List.append_nil]
        -- a statement without its line break is the last one, so nothing is left for the others
        rcases ended with first' | ⟨last, first'⟩
        · rcases written with others | ⟨-, others⟩
          · exact Or.inl (first'.andBody others)
          · refine Or.inr ⟨List.append_ne_nil_of_left_ne_nil some us, ?_⟩
            rw [List.append_assoc]
            exact first'.andBody others
        · have none : us = [] := by
            rw [← all]
            exact List.append_right_eq_self.mp (left.symm.trans last)
          subst none
          rcases written with others | ⟨more, -⟩
          · rw [List.append_nil]
            refine Or.inr ⟨some, ?_⟩
            have made := first'.andBody others
            rwa [List.append_nil] at made
          · exact absurd rfl more

end Reader

/-! ### Sources -/

/-- A program is written in the tokens of its source; the last line break may be missing. -/
theorem parse_writes {source : String} {program : Program} (parsed : parse source = .ok program) :
    ∃ stream, tokenize source = .ok stream ∧ (Writes (.body program) stream.items ∨
      Writes (.body program) (stream.items ++ [.newline])) := by
  unfold parse at parsed
  cases read : tokenize source with
  | error mistake =>
      rw [read] at parsed
      cases parsed
  | ok stream =>
      refine ⟨stream, rfl, ?_⟩
      simp only [read, bind, Except.bind] at parsed
      split at parsed
      · next made s' ended =>
          cases parsed
          have enough := Nat.le_of_eq stream.length_items
          obtain ⟨ts, ⟨rfl, written⟩, -⟩ := Reader.reads_statements _ enough ended
          exact written.imp_right And.right
      · cases parsed

/-- How the blocks of an accepted source end. Its program is written in its tokens: every body of a
loop, a function or a block has its own `end`, and the branches of a conditional share one, but for
an `end` directly in front of an `else`, which the parser passes over. So there are as many `end`
and `else` as there are `do`, and one more for each such place; the counts agree if and only if
there is no such place. -/
theorem accepted_blocks_are_ended {source : String} {program : Program}
    (parsed : parse source = .ok program) :
    ∃ stream, tokenize source = .ok stream ∧
      (Writes (.body program) stream.items ∨
        Writes (.body program) (stream.items ++ [.newline])) ∧
      stream.items.count (.word .endWord) + stream.items.count (.word .elseWord) =
        stream.items.count (.word .doWord) + endsBeforeElse stream.items ∧
      (stream.items.count (.word .endWord) + stream.items.count (.word .elseWord) =
          stream.items.count (.word .doWord) ↔
        ¬ [.word .endWord, .word .elseWord] <:+: stream.items) := by
  obtain ⟨stream, read, written⟩ := parse_writes parsed
  have count : stream.items.count (.word .endWord) + stream.items.count (.word .elseWord) =
      stream.items.count (.word .doWord) + endsBeforeElse stream.items := by
    rcases written with written | written
    · exact written.balanced.count
    · have balanced := written.balanced.count
      simpa [endsBeforeElse_append_newline] using balanced
  refine ⟨stream, read, written, count, ?_⟩
  rw [← endsBeforeElse_eq_zero_iff, count]
  exact Nat.add_eq_left

def chainInLoop : String :=
  "repeat 2 times do\n  if true do\n  else if false do\n  else do\n  end\nend"

theorem chain_in_loop_has_two_ends :
    ∃ program stream, parse chainInLoop = .ok program ∧ tokenize chainInLoop = .ok stream ∧
      (Writes (.body program) stream.items ∨
        Writes (.body program) (stream.items ++ [.newline])) ∧
      stream.items.count (.word .endWord) = 2 ∧ stream.items.count (.word .doWord) = 4 ∧
      stream.items.count (.word .elseWord) = 2 := by
  have accepted : (parse chainInLoop).isOk = true := by decide +kernel
  have counts : ((tokenize chainInLoop).toOption.map fun stream =>
      (stream.items.count (.word .endWord), stream.items.count (.word .doWord),
        stream.items.count (.word .elseWord))) = some (2, 4, 2) := by decide +kernel
  cases parsed : parse chainInLoop with
  | error mistake =>
      rw [parsed] at accepted
      cases accepted
  | ok program =>
      obtain ⟨stream, read, written, -⟩ := accepted_blocks_are_ended parsed
      rw [read] at counts
      simp only [Except.toOption, Option.map_some, Option.some.injEq, Prod.mk.injEq] at counts
      exact ⟨program, stream, rfl, read, written, counts⟩

def twiceEnded : String :=
  "if true do\nend else do\nend"

/-- Each branch of this source has an `end`, and yet it is accepted. -/
theorem an_end_is_passed_over :
    ¬ ∀ source program stream, parse source = .ok program → tokenize source = .ok stream →
      stream.items.count (.word .endWord) + stream.items.count (.word .elseWord) =
        stream.items.count (.word .doWord) := by
  intro balanced
  have accepted : (parse twiceEnded).isOk = true := by decide +kernel
  have counts : ((tokenize twiceEnded).toOption.map fun stream =>
      (stream.items.count (.word .endWord), stream.items.count (.word .doWord),
        stream.items.count (.word .elseWord))) = some (2, 2, 1) := by decide +kernel
  cases parsed : parse twiceEnded with
  | error mistake =>
      rw [parsed] at accepted
      cases accepted
  | ok program =>
      cases read : tokenize twiceEnded with
      | error mistake =>
          rw [read] at counts
          cases counts
      | ok stream =>
          have same := balanced twiceEnded program stream parsed read
          rw [read] at counts
          simp only [Except.toOption, Option.map_some, Option.some.injEq, Prod.mk.injEq] at counts
          omega

end Walkthrough.JikiScript
