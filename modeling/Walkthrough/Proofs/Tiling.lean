import Mathlib.Data.List.Chain
import Walkthrough.Proofs.Spelling

/-! Tokens tile the source. Each token stands for the characters that write it, one token behind the
other, and what is left between them is blanks and comments, and in JikiScript also the line breaks
that follow no other token on their line. The place of a token is counted from the characters in
front of it, and the place of the end from all of them. -/

namespace Walkthrough

/-- The place behind some characters: lines and columns count from 1, and a column counts what
stands behind the last line break. -/
def Position.behind (before : List Char) : Position :=
  { line := 1 + before.count '\n'
    column := 1 + (before.reverse.takeWhile (· != '\n')).length }

theorem Position.after_behind (before : List Char) (c : Char) :
    (behind before).after c = behind (before ++ [c]) := by
  unfold after behind
  by_cases feed : c = '\n'
  · simp [feed, Nat.add_assoc]
  · simp [feed, Nat.add_assoc]

theorem Position.afterAll_behind (before cs : List Char) :
    (behind before).afterAll cs = behind (before ++ cs) := by
  induction cs generalizing before with
  | nil => rw [List.append_nil]; rfl
  | cons c rest ih =>
      change ((behind before).after c).afterAll rest = _
      rw [after_behind, ih, List.append_assoc, List.singleton_append]

/-- The tokens tile the characters behind `before`: each stands for some characters that write it,
in order, at the place behind all that is in front of them, and `Spacing` holds of what is left
between them. What may be left depends on the token in front, `front` for the first, and on what
follows. -/
inductive Tiles {T : Type} (Spacing : Option T → List Char → List Char → Prop)
    (IsLexeme : T → List Char → Prop) :
    List Char → Option T → List Char → List (Located T) → Prop
  | done {before gap : List Char} {front : Option T} : Spacing front gap [] →
      Tiles Spacing IsLexeme before front gap []
  | token {before gap lexeme rest : List Char} {front : Option T} {item : T}
      {tokens : List (Located T)} : Spacing front gap (lexeme ++ rest) → lexeme ≠ [] →
      IsLexeme item lexeme →
      Tiles Spacing IsLexeme (before ++ gap ++ lexeme) (some item) rest tokens →
      Tiles Spacing IsLexeme before front (gap ++ lexeme ++ rest)
        (⟨item, Position.behind (before ++ gap)⟩ :: tokens)

/-- More may be left in front of the first token where that makes one gap with what is there. -/
theorem Tiles.extend {T : Type} {Spacing : Option T → List Char → List Char → Prop}
    {IsLexeme : T → List Char → Prop} {before gap cs : List Char} {front : Option T}
    {tokens : List (Located T)}
    (joins : ∀ {more following}, Spacing front gap (more ++ following) →
      Spacing front more following → Spacing front (gap ++ more) following)
    (left : Spacing front gap cs) (h : Tiles Spacing IsLexeme (before ++ gap) front cs tokens) :
    Tiles Spacing IsLexeme before front (gap ++ cs) tokens := by
  cases h with
  | done more =>
      apply Tiles.done
      apply joins _ more
      rwa [List.append_nil]
  | @token _ more lexeme rest _ item tokens spacing nonempty writes tiles =>
      rw [List.append_assoc] at left
      have further : Tiles Spacing IsLexeme (before ++ (gap ++ more) ++ lexeme) (some item) rest
          tokens := by simpa using tiles
      simpa using further.token (joins left spacing) nonempty writes

def lastItem {T : Type} (front : Option T) (tokens : List (Located T)) : Option T :=
  (tokens.getLast?.map (·.item)).or front

theorem lastItem_cons {T : Type} (front : Option T) (t : Located T) (tokens : List (Located T)) :
    lastItem front (t :: tokens) = lastItem (some t.item) tokens := by
  unfold lastItem
  cases tokens with
  | nil => rfl
  | cons next rest =>
      rw [List.getLast?_cons_cons, List.getLast?_eq_some_getLast (List.cons_ne_nil next rest)]
      rfl

/-- The tokens of a stream, and the end of the source behind them. -/
def Stream.listing {T : Type} (s : Stream T) : List (Located (Option T)) :=
  s.ahead.map (fun t => ⟨some t.item, t.position⟩) ++ [⟨none, s.stop⟩]

theorem Stream.listing_ends {T : Type} (s : Stream T) {i : Nat} {t : Located (Option T)}
    (found : s.listing[i]? = some t) : t.item = none ↔ i + 1 = s.listing.length := by
  unfold listing at found ⊢
  rw [List.getElem?_append] at found
  rw [List.length_append, List.length_map, List.length_singleton]
  split at found
  · next inside =>
      rw [List.length_map] at inside
      rw [List.getElem?_map, Option.map_eq_some_iff] at found
      obtain ⟨u, -, rfl⟩ := found
      simp
      omega
  · next outside =>
      rw [List.length_map] at outside
      rw [List.length_map, List.getElem?_singleton] at found
      split at found
      · cases found
        simp
        omega
      · cases found

namespace JikiScript

variable {front : Option Token} {cs rest left gap more following before : List Char}
  {p stop : Position}

/-- No line break is reported where the start of the source, or a line break, is in front. -/
def Fresh (front : Option Token) : Prop :=
  front = none ∨ front = some .newline

instance (front : Option Token) : Decidable (Fresh front) :=
  inferInstanceAs (Decidable (_ ∨ _))

theorem fresh_iff : Fresh front ↔ front.getD .newline = .newline := by
  cases front <;> simp [Fresh]

theorem fresh_some {token : Token} : Fresh (some token) ↔ token = .newline := by
  simp [Fresh]

/-- What may be left between two tokens, by the token in front and the characters that follow:
blanks, comments up to the end of their line, and line breaks where there is none to report. -/
inductive Spacing (front : Option Token) : List Char → List Char → Prop
  | nothing {following : List Char} : Spacing front [] following
  | blank {c : Char} {gap following : List Char} : isGap c = true → Spacing front gap following →
      Spacing front (c :: gap) following
  | comment {text gap following : List Char} : '\n' ∉ text →
      (∀ c ∈ (gap ++ following).head?, c = '\n') → Spacing front gap following →
      Spacing front ('/' :: '/' :: text ++ gap) following
  | feed {gap following : List Char} : Fresh front → Spacing front gap following →
      Spacing front ('\n' :: gap) following

theorem Spacing.join (h : Spacing front gap (more ++ following))
    (next : Spacing front more following) : Spacing front (gap ++ more) following := by
  generalize joined : more ++ following = all at h
  induction h with
  | nothing => exact next
  | blank blank _ ih => exact .blank blank (ih joined)
  | comment line ends _ ih =>
      subst joined
      rw [← List.append_assoc] at ends
      rw [List.append_assoc]
      exact .comment line ends (ih rfl)
  | feed fresh _ ih => exact .feed fresh (ih joined)

theorem skipGaps_spacing (front : Option Token) (inComment : Bool) (p : Position) (cs : List Char) :
    ∃ gap, cs = gap ++ (skipGaps inComment p cs).2 ∧
      (skipGaps inComment p cs).1 = p.afterAll gap ∧
      if inComment then '\n' ∉ gap ∧ ∀ c ∈ (skipGaps inComment p cs).2.head?, c = '\n'
      else Spacing front gap (skipGaps inComment p cs).2 := by
  fun_induction skipGaps inComment p cs with
  | case1 inComment p =>
      refine ⟨[], rfl, rfl, ?_⟩
      cases inComment with
      | true => exact ⟨List.not_mem_nil, by simp⟩
      | false => exact .nothing
  | case2 p rest => exact ⟨[], rfl, rfl, List.not_mem_nil, by simp⟩
  | case3 p c rest noFeed ih =>
      obtain ⟨gap, split, moved, line, ends⟩ := ih
      refine ⟨c :: gap, by rw [List.cons_append, ← split], moved, ?_, ends⟩
      simpa [line] using Ne.symm noFeed
  | case4 inComment p c rest notInside blank ih =>
      obtain ⟨gap, split, moved, skipped⟩ := ih
      cases inComment with
      | true => exact absurd rfl notInside
      | false => exact ⟨c :: gap, by rw [List.cons_append, ← split], moved, .blank blank skipped⟩
  | case5 inComment p c rest notInside _ opens ih =>
      obtain ⟨gap, split, moved, line, ends⟩ := ih
      cases inComment with
      | true => exact absurd rfl notInside
      | false =>
          rw [Bool.and_eq_true, decide_eq_true_eq, decide_eq_true_eq] at opens
          obtain ⟨rfl, second⟩ := opens
          generalize skipGaps true (p.after '/') rest = found at split moved ends ⊢
          subst split
          cases gap with
          | nil => exact absurd (ends '/' second) (by decide)
          | cons d text =>
              cases second
              refine ⟨'/' :: '/' :: text ++ [], by simp, ?_, .comment ?_ ends .nothing⟩
              · rw [moved, List.append_nil]
                rfl
              · exact fun member => line (List.mem_cons_of_mem _ member)
  | case6 inComment p c rest notInside _ _ =>
      cases inComment with
      | true => exact absurd rfl notInside
      | false => exact ⟨[], rfl, rfl, .nothing⟩

/-- The line break at the end of a source, unless nothing stands in front of it or a line break. -/
def endBreak (last : Option Token) (stop : Position) : List (Located Token) :=
  if Fresh last then [] else [⟨.newline, stop⟩]

/-- Not both are line breaks. -/
def Apart (a b : Token) : Prop :=
  ¬(a = .newline ∧ b = .newline)

/-- One round of the scanner: it comes to the end, passes over a line break that adds nothing, or
reads a token and goes on behind it. -/
inductive Round (front : Option Token) (bound : Nat) (fresh : Bool) (before : List Char) :
    List Char → List (Located Token) → Position → Prop
  | ends {gap : List Char} : Spacing front gap [] →
      Round front bound fresh before gap
        (if fresh then [] else [⟨.newline, .behind (before ++ gap)⟩]) (.behind (before ++ gap))
  | collapses {gap left : List Char} {tokens : List (Located Token)} {stop : Position} :
      fresh = true → Spacing front gap ('\n' :: left) →
      scan bound true (.behind (before ++ gap ++ ['\n'])) left = .ok (tokens, stop) →
      Round front bound fresh before (gap ++ '\n' :: left) tokens stop
  | reads {gap lexeme left : List Char} {token : Token} {tokens : List (Located Token)}
      {stop : Position} : ¬(token = .newline ∧ fresh = true) →
      Spacing front gap (lexeme ++ left) → IsLexeme token lexeme →
      scan bound (token = .newline) (.behind (before ++ gap ++ lexeme)) left = .ok (tokens, stop) →
      Round front bound fresh before (gap ++ lexeme ++ left)
        (⟨token, .behind (before ++ gap)⟩ :: tokens) stop

theorem scan_round (front : Option Token) {bound : Nat} {fresh : Bool}
    {tokens : List (Located Token)}
    (read : scan (bound + 1) fresh (.behind before) cs = .ok (tokens, stop)) :
    Round front bound fresh before cs tokens stop := by
  obtain ⟨gap, split, moved, skipped⟩ := skipGaps_spacing front false (.behind before) cs
  rw [Position.afterAll_behind] at moved
  rw [if_neg Bool.false_ne_true] at skipped
  unfold scan at read
  dsimp only at read
  rw [moved] at read
  generalize (skipGaps false (.behind before) cs).2 = ahead at read split skipped
  subst split
  cases ahead with
  | nil =>
      cases read
      rw [List.append_nil]
      exact .ends skipped
  | cons c rest =>
      dsimp only at read
      cases taken : nextToken (.behind (before ++ gap)) c rest with
      | error mistake =>
          rw [taken] at read
          cases read
      | ok result =>
          obtain ⟨token, next, left⟩ := result
          rw [taken] at read
          obtain ⟨lexeme, here, rfl, writes⟩ := nextToken_isLexeme taken
          rw [Position.afterAll_behind] at read
          rw [here] at skipped ⊢
          dsimp only at read
          by_cases again : token = .newline ∧ fresh = true
          · rw [if_pos (by simpa using again)] at read
            obtain ⟨rfl, begun⟩ := again
            cases writes
            exact .collapses begun skipped read
          · rw [if_neg (by simpa using again)] at read
            cases scanned : scan bound (token = .newline)
                (.behind (before ++ gap ++ lexeme)) left with
            | error mistake =>
                rw [scanned] at read
                cases read
            | ok later =>
                rw [scanned] at read
                cases read
                rw [← List.append_assoc]
                exact .reads again skipped writes scanned

/-- The scanner reads tokens that tile the characters, and ends with a line break. No two line
breaks follow each other; the start of the source counts as one. -/
theorem scan_tiles {bound : Nat} {fresh : Bool} (before : List Char)
    {tokens : List (Located Token)}
    (read : scan bound fresh (.behind before) cs = .ok (tokens, stop)) (room : cs.length < bound)
    (known : fresh = true ↔ Fresh front) :
    (∃ written, Tiles Spacing IsLexeme before front cs written ∧
      tokens = written ++ endBreak (lastItem front written) stop) ∧
    stop = .behind (before ++ cs) ∧
    (front.getD .newline :: tokens.map (·.item)).IsChain Apart := by
  induction bound generalizing fresh front before cs tokens with
  | zero => exact absurd room (Nat.not_lt_zero _)
  | succ bound ih =>
      cases scan_round front read with
      | ends spacing =>
          by_cases begun : fresh = true
          · rw [if_pos begun]
            exact ⟨⟨[], .done spacing, (if_pos (known.mp begun)).symm⟩, rfl, .singleton _⟩
          · rw [if_neg begun]
            refine ⟨⟨[], .done spacing, (if_neg (mt known.mpr begun)).symm⟩, rfl, ?_⟩
            apply List.IsChain.cons_cons _ (.singleton _)
            rintro ⟨starts, -⟩
            exact begun (known.mpr (fresh_iff.mpr starts))
      | @collapses gap left _ _ begun spacing later =>
          have fresh' := known.mp begun
          have less : left.length < bound := by
            simp only [List.length_append, List.length_cons] at room
            omega
          obtain ⟨⟨written, tiles, rfl⟩, rfl, chain⟩ := ih _ later less (iff_of_true rfl fresh')
          refine ⟨⟨written, ?_, rfl⟩, by simp, chain⟩
          have longer : Spacing front (gap ++ ['\n']) left := spacing.join (.feed fresh' .nothing)
          rw [List.append_assoc] at tiles
          simpa using tiles.extend Spacing.join longer
      | @reads gap lexeme left token later _ new spacing writes scanned =>
          have consumed := List.length_pos_of_ne_nil writes.ne_nil
          have less : left.length < bound := by
            simp only [List.length_append] at room
            omega
          obtain ⟨⟨written, tiles, ends⟩, stops, chain⟩ :=
            ih _ scanned less (by simpa using fresh_some.symm)
          refine ⟨⟨⟨token, .behind (before ++ gap)⟩ :: written, ?_, ?_⟩, ?_, ?_⟩
          · exact .token spacing writes.ne_nil writes tiles
          · rw [lastItem_cons, List.cons_append, ends]
          · rw [stops]
            simp
          · apply List.IsChain.cons_cons _ chain
            rintro ⟨starts, rfl⟩
            exact new ⟨rfl, known.mpr (fresh_iff.mpr starts)⟩

theorem fresh_endBreak (front : Option Token) (written : List (Located Token)) (stop : Position) :
    Fresh (lastItem front (written ++ endBreak (lastItem front written) stop)) := by
  unfold endBreak
  by_cases fresh : Fresh (lastItem front written)
  · rwa [if_pos fresh, List.append_nil]
  · rw [if_neg fresh]
    apply Or.inr
    simp [lastItem]

theorem tokenize_tiles {source : String} {s : Stream Token} (read : tokenize source = .ok s) :
    (∃ written, Tiles Spacing IsLexeme [] none source.toList written ∧
      s.ahead = written ++ endBreak (lastItem none written) s.stop) ∧
    s.stop = .behind source.toList ∧
    (Token.newline :: s.ahead.map (·.item)).IsChain Apart := by
  unfold tokenize at read
  dsimp only at read
  cases scanned : scan (source.toList.length + 1) true Position.start source.toList with
  | error mistake =>
      rw [scanned] at read
      cases read
  | ok result =>
      rw [scanned] at read
      cases read
      have known : true = true ↔ Fresh none := iff_of_true rfl (Or.inl rfl)
      exact scan_tiles [] scanned (Nat.lt_succ_self _) known

end JikiScript

namespace JavaScript

variable {cs left : List Char} {p stop : Position}

/-- What may be left between two tokens, by the characters that follow: blanks, comments up to the
end of their line, and comments up to the first mark that closes them. -/
inductive Spacing : List Char → List Char → Prop
  | nothing {following : List Char} : Spacing [] following
  | blank {c : Char} {gap following : List Char} : Text.isBlank c = true → Spacing gap following →
      Spacing (c :: gap) following
  | lineComment {text gap following : List Char} : '\n' ∉ text →
      (∀ c ∈ (gap ++ following).head?, c = '\n') → Spacing gap following →
      Spacing ('/' :: '/' :: text ++ gap) following
  | comment {text gap following : List Char} : ¬ ['*', '/'] <:+: text ++ ['*'] →
      Spacing gap following → Spacing ('/' :: '*' :: text ++ '*' :: '/' :: gap) following

/-- What is skipped where blanks, or the text of a comment, come first. -/
def Skips : Gap → List Char → List Char → Prop
  | .blanks, gap, following => Spacing gap following
  | .lineComment, gap, following => ∃ text more, gap = text ++ more ∧ '\n' ∉ text ∧
      (∀ c ∈ (more ++ following).head?, c = '\n') ∧ Spacing more following
  | .comment _, gap, following => ∃ text more, gap = text ++ '*' :: '/' :: more ∧
      ¬ ['*', '/'] <:+: text ++ ['*'] ∧ Spacing more following

theorem skipGaps_skips {gap : Gap} (read : skipGaps gap p cs = .ok (stop, left)) :
    ∃ skipped, cs = skipped ++ left ∧ stop = p.afterAll skipped ∧ Skips gap skipped left := by
  fun_induction skipGaps gap p cs with
  | case1 => cases read
  | case2 p =>
      cases read
      exact ⟨[], rfl, rfl, .nothing⟩
  | case3 p =>
      cases read
      exact ⟨[], rfl, rfl, [], [], rfl, List.not_mem_nil, by simp, .nothing⟩
  | case4 _ p rest ih =>
      obtain ⟨skipped, rfl, rfl, spacing⟩ := ih read
      exact ⟨'*' :: '/' :: skipped, rfl, rfl, [], skipped, rfl, by decide, spacing⟩
  | case5 start p c rest notClosed ih =>
      obtain ⟨skipped, rfl, rfl, text, more, rfl, open_, spacing⟩ := ih read
      refine ⟨c :: (text ++ '*' :: '/' :: more), rfl, rfl, c :: text, more, rfl, ?_, spacing⟩
      rw [List.cons_append, List.infix_cons_iff, not_or]
      refine ⟨fun closing => ?_, open_⟩
      obtain ⟨rfl, second⟩ := List.cons_prefix_cons.mp closing
      cases text with
      | nil => exact absurd second (by decide)
      | cons d text =>
          obtain ⟨rfl, -⟩ := List.cons_prefix_cons.mp second
          exact notClosed _ rfl rfl
  | case6 p c rest ih =>
      obtain ⟨skipped, rfl, rfl, skips⟩ := ih read
      by_cases feed : c = '\n'
      · rw [if_pos feed] at skips
        refine ⟨c :: skipped, rfl, rfl, [], c :: skipped, rfl, List.not_mem_nil, by simp [feed], ?_⟩
        exact .blank (feed ▸ Text.isBlank_feed) skips
      · rw [if_neg feed] at skips
        obtain ⟨text, more, rfl, line, ends, spacing⟩ := skips
        refine ⟨c :: (text ++ more), rfl, rfl, c :: text, more, rfl, ?_, ends, spacing⟩
        simpa [line] using Ne.symm feed
  | case7 p rest ih =>
      obtain ⟨skipped, rfl, rfl, text, more, rfl, line, ends, spacing⟩ := ih read
      exact ⟨'/' :: '/' :: (text ++ more), rfl, rfl, .lineComment line ends spacing⟩
  | case8 p rest ih =>
      obtain ⟨skipped, rfl, rfl, text, more, rfl, open_, spacing⟩ := ih read
      refine ⟨'/' :: '*' :: (text ++ '*' :: '/' :: more), by simp, rfl, .comment open_ spacing⟩
  | case9 p c rest _ _ blank ih =>
      obtain ⟨skipped, rfl, rfl, spacing⟩ := ih read
      exact ⟨c :: skipped, rfl, rfl, .blank blank spacing⟩
  | case10 p c rest _ _ visible =>
      cases read
      exact ⟨[], rfl, rfl, .nothing⟩

/-- One round of the scanner: it comes to the end, or reads a token and goes on behind it. -/
inductive Round (bound : Nat) (before : List Char) :
    List Char → List (Located Token) → Position → Prop
  | ends {gap : List Char} : Spacing gap [] → Round bound before gap [] (.behind (before ++ gap))
  | reads {gap lexeme left : List Char} {token : Token} {tokens : List (Located Token)}
      {stop : Position} : Spacing gap (lexeme ++ left) → IsLexeme token lexeme →
      scan bound (.behind (before ++ gap ++ lexeme)) left = .ok (tokens, stop) →
      Round bound before (gap ++ lexeme ++ left) (⟨token, .behind (before ++ gap)⟩ :: tokens) stop

theorem scan_round {bound : Nat} {before : List Char} {tokens : List (Located Token)}
    (read : scan (bound + 1) (.behind before) cs = .ok (tokens, stop)) :
    Round bound before cs tokens stop := by
  unfold scan at read
  cases skipped : skipGaps .blanks (.behind before) cs with
  | error mistake =>
      rw [skipped] at read
      cases read
  | ok found =>
      obtain ⟨place, ahead⟩ := found
      obtain ⟨gap, rfl, rfl, spacing⟩ := skipGaps_skips skipped
      rw [Position.afterAll_behind] at skipped
      simp only [skipped, bind, Except.bind] at read
      cases ahead with
      | nil =>
          cases read
          rw [List.append_nil]
          exact .ends spacing
      | cons c rest =>
          dsimp only at read
          cases taken : nextToken (.behind (before ++ gap)) c rest with
          | error mistake =>
              rw [taken] at read
              cases read
          | ok result =>
              obtain ⟨token, next, left⟩ := result
              rw [taken] at read
              obtain ⟨lexeme, here, rfl, writes⟩ := nextToken_isLexeme taken
              rw [Position.afterAll_behind] at read
              rw [here] at spacing ⊢
              dsimp only at read
              cases scanned : scan bound (.behind (before ++ gap ++ lexeme)) left with
              | error mistake =>
                  rw [scanned] at read
                  cases read
              | ok later =>
                  rw [scanned] at read
                  cases read
                  rw [← List.append_assoc]
                  exact .reads spacing writes scanned

theorem scan_tiles {bound : Nat} (before : List Char) (front : Option Token)
    {tokens : List (Located Token)} (read : scan bound (.behind before) cs = .ok (tokens, stop))
    (room : cs.length < bound) :
    Tiles (fun _ => Spacing) IsLexeme before front cs tokens ∧ stop = .behind (before ++ cs) := by
  induction bound generalizing front before cs tokens with
  | zero => exact absurd room (Nat.not_lt_zero _)
  | succ bound ih =>
      cases scan_round read with
      | ends spacing => exact ⟨.done spacing, rfl⟩
      | @reads gap lexeme left token later _ spacing writes scanned =>
          have consumed := List.length_pos_of_ne_nil writes.ne_nil
          have less : left.length < bound := by
            simp only [List.length_append] at room
            omega
          obtain ⟨tiles, stops⟩ := ih _ (some token) scanned less
          refine ⟨.token spacing writes.ne_nil writes tiles, ?_⟩
          rw [stops]
          simp

theorem tokenize_tiles {source : String} {s : Stream Token} (read : tokenize source = .ok s) :
    Tiles (fun _ => Spacing) IsLexeme [] none source.toList s.ahead ∧
      s.stop = .behind source.toList := by
  unfold tokenize at read
  dsimp only at read
  cases scanned : scan (source.toList.length + 1) Position.start source.toList with
  | error mistake =>
      rw [scanned] at read
      cases read
  | ok result =>
      rw [scanned] at read
      cases read
      exact scan_tiles [] none scanned (Nat.lt_succ_self _)

end JavaScript

/-- Tokens tile the source. In both languages each token stands, in order, for characters that write
it, and what is left between them is blanks, comments, and in JikiScript line breaks that follow no
other token; the place of a token counts the characters in front of it, and the place of the end
counts them all. The end stands behind all tokens and nowhere else. In JikiScript a line break is
added at the end where there is none; so no source starts with a line break, none has two in a row,
and one stands in front of the end unless that is all there is. -/
theorem tokens_tile_source (source : String) :
    (∀ s, JikiScript.tokenize source = .ok s →
      (∃ written,
        Tiles JikiScript.Spacing JikiScript.IsLexeme [] none source.toList written ∧
          s.ahead = written ++ JikiScript.endBreak (lastItem none written) s.stop) ∧
      s.stop = .behind source.toList ∧
      (∀ i t, s.listing[i]? = some t → (t.item = none ↔ i + 1 = s.listing.length)) ∧
      s.ahead.head?.map (·.item) ≠ some .newline ∧
      (s.ahead.map (·.item)).IsChain JikiScript.Apart ∧
      (s.ahead ≠ [] → s.ahead.getLast?.map (·.item) = some .newline)) ∧
    (∀ s, JavaScript.tokenize source = .ok s →
      Tiles (fun _ => JavaScript.Spacing) JavaScript.IsLexeme [] none source.toList s.ahead ∧
      s.stop = .behind source.toList ∧
      ∀ i t, s.listing[i]? = some t → (t.item = none ↔ i + 1 = s.listing.length)) := by
  constructor
  · intro s read
    obtain ⟨⟨written, tiles, ahead⟩, stops, chain⟩ := JikiScript.tokenize_tiles read
    obtain ⟨begins, apart⟩ := List.isChain_cons.mp chain
    refine ⟨⟨written, tiles, ahead⟩, stops, fun _ _ => s.listing_ends, ?_, apart, ?_⟩
    · rw [← List.head?_map]
      intro first
      exact begins .newline first ⟨rfl, rfl⟩
    · intro nonempty
      have fresh := JikiScript.fresh_endBreak none written s.stop
      rw [← ahead, JikiScript.Fresh, lastItem, Option.or_none] at fresh
      apply fresh.resolve_left
      simpa using nonempty
  · intro s read
    obtain ⟨tiles, stops⟩ := JavaScript.tokenize_tiles read
    exact ⟨tiles, stops, fun _ _ => s.listing_ends⟩

/-- A line that begins with a comment tells nothing; the last line gets its line break. -/
theorem scattered_lines_are_tiled :
    (∃ s written, JikiScript.tokenize "\n // note\nlog \"a\\\"b\" // end" = .ok s ∧
      s.ahead = [⟨.word .logWord, ⟨3, 1⟩⟩, ⟨.text "a\"b", ⟨3, 5⟩⟩, ⟨.newline, ⟨3, 18⟩⟩] ∧
      Tiles JikiScript.Spacing JikiScript.IsLexeme [] none
        "\n // note\nlog \"a\\\"b\" // end".toList written) ∧
    (∃ s, JavaScript.tokenize "x /* a\n*/ ++ // end\n" = .ok s ∧
      s.ahead = [⟨.name "x", ⟨1, 1⟩⟩, ⟨.mark .plusPlus, ⟨2, 4⟩⟩] ∧ s.stop = ⟨3, 1⟩ ∧
      Tiles (fun _ => JavaScript.Spacing) JavaScript.IsLexeme [] none
        "x /* a\n*/ ++ // end\n".toList s.ahead) := by
  constructor
  · have shown : (JikiScript.tokenize "\n // note\nlog \"a\\\"b\" // end").toOption.map (·.ahead) =
        some [⟨.word .logWord, ⟨3, 1⟩⟩, ⟨.text "a\"b", ⟨3, 5⟩⟩, ⟨.newline, ⟨3, 18⟩⟩] := by
      decide +kernel
    cases read : JikiScript.tokenize "\n // note\nlog \"a\\\"b\" // end" with
    | error mistake =>
        rw [read] at shown
        cases shown
    | ok s =>
        rw [read] at shown
        obtain ⟨⟨written, tiles, -⟩, -⟩ := (tokens_tile_source _).1 s read
        exact ⟨s, written, rfl, Option.some.inj shown, tiles⟩
  · have shown : (JavaScript.tokenize "x /* a\n*/ ++ // end\n").toOption.map
        (fun s => (s.ahead, s.stop)) =
        some ([⟨.name "x", ⟨1, 1⟩⟩, ⟨.mark .plusPlus, ⟨2, 4⟩⟩], ⟨3, 1⟩) := by
      decide +kernel
    cases read : JavaScript.tokenize "x /* a\n*/ ++ // end\n" with
    | error mistake =>
        rw [read] at shown
        cases shown
    | ok s =>
        rw [read] at shown
        obtain ⟨ahead, stop⟩ := Prod.mk.inj (Option.some.inj shown)
        exact ⟨s, rfl, ahead, stop, ((tokens_tile_source _).2 s read).1⟩

end Walkthrough
