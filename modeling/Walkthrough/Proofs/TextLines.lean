import Walkthrough.Proofs.Tiling

/-! Texts and lines. A text of a program stays on its line, except where a backslash stands in front
of the line break: the scanner takes that for an escape like any other, and the text goes on behind
it. Between its quotes there is no other line break, so the text ends as many lines further down as
it escapes line breaks. -/

namespace Walkthrough

theorem Tiles.placed {T : Type} {Spacing : Option T → List Char → List Char → Prop}
    {IsLexeme : T → List Char → Prop} {before cs : List Char} {front : Option T}
    {tokens : List (Located T)} (tiles : Tiles Spacing IsLexeme before front cs tokens) :
    ∀ t ∈ tokens, ∃ ahead lexeme behind, before ++ cs = ahead ++ lexeme ++ behind ∧
      t.position = .behind ahead ∧ IsLexeme t.item lexeme := by
  induction tiles with
  | done => exact nofun
  | @token before gap lexeme rest _ item _ _ _ writes _ ih =>
      intro t member
      rcases List.mem_cons.mp member with rfl | later
      · exact ⟨before ++ gap, lexeme, rest, by simp, rfl, writes⟩
      · obtain ⟨ahead, lexeme', behind, split, place, written⟩ := ih t later
        refine ⟨ahead, lexeme', behind, ?_, place, written⟩
        rw [← split]
        simp

/-- A line break inside a text stands behind a backslash that is no escaped character itself. -/
theorem Text.Quoted.feed_escaped {quote : Char} {body contents : List Char}
    (quoted : Quoted quote body contents) {front more : List Char}
    (split : body = front ++ '\n' :: more) :
    ∃ earlier inner, front = earlier ++ ['\\'] ∧ Quoted quote earlier inner := by
  induction quoted generalizing front with
  | nothing => cases front <;> cases split
  | @plain c _ _ noQuote noFeed noSlash _ ih =>
      cases front with
      | nil =>
          cases split
          exact absurd rfl noFeed
      | cons d front =>
          cases split
          obtain ⟨earlier, inner, rfl, written⟩ := ih rfl
          exact ⟨c :: earlier, c :: inner, rfl, .plain noQuote noFeed noSlash written⟩
  | @escaped c body contents _ ih =>
      -- the line break is no backslash; it is the escaped character, or stands behind it
      match front with
      | [] => cases split
      | [d] =>
          cases split
          exact ⟨[], [], rfl, .nothing⟩
      | d :: e :: front =>
          cases split
          obtain ⟨earlier, inner, rfl, written⟩ := ih rfl
          exact ⟨'\\' :: c :: earlier, _, rfl, .escaped c written⟩

theorem Position.line_behind (before cs : List Char) :
    (behind (before ++ cs)).line = (behind before).line + cs.count '\n' := by
  unfold behind
  rw [List.count_append, Nat.add_assoc]

namespace JikiScript

variable {source : String} {s : Stream Token}

theorem text_placed (read : tokenize source = .ok s) {t : Located Token} (member : t ∈ s.ahead)
    {contents : String} (text : t.item = .text contents) :
    ∃ before body behind, source.toList = before ++ '"' :: body ++ '"' :: behind ∧
      t.position = .behind before ∧ Text.Quoted '"' body contents.toList := by
  obtain ⟨⟨written, tiles, ahead⟩, -⟩ := tokenize_tiles read
  rw [ahead, List.mem_append] at member
  have there : t ∈ written := by
    apply member.resolve_right
    intro last
    unfold endBreak at last
    split at last
    · cases last
    · rw [List.mem_singleton.mp last] at text
      cases text
  obtain ⟨before, lexeme, behind, split, place, writes⟩ := tiles.placed t there
  rw [text] at writes
  cases writes with
  | @text body contents quoted =>
      refine ⟨before, body, behind, ?_, place, by rwa [String.toList_ofList]⟩
      simpa using split

/-- Where a text runs over the end of its line. Each text stands in the source between two quotes;
every line break between these stands behind a backslash that escapes it, and as many lines further
down the text ends. So a source in which no backslash stands in front of a line break has each of
its texts on one line. -/
theorem texts_break_at_escapes (read : tokenize source = .ok s) {t : Located Token}
    (member : t ∈ s.ahead) {contents : String} (text : t.item = .text contents) :
    ∃ before body behind, source.toList = before ++ '"' :: body ++ '"' :: behind ∧
      t.position = .behind before ∧ Text.Quoted '"' body contents.toList ∧
      (Position.behind (before ++ '"' :: body)).line = t.position.line + body.count '\n' ∧
      (∀ front more, body = front ++ '\n' :: more →
        ∃ earlier inner, front = earlier ++ ['\\'] ∧ Text.Quoted '"' earlier inner) ∧
      (¬ ['\\', '\n'] <:+: source.toList → '\n' ∉ body) := by
  obtain ⟨before, body, behind, split, place, quoted⟩ := text_placed read member text
  refine ⟨before, body, behind, split, place, quoted, ?_, fun _ _ => quoted.feed_escaped, ?_⟩
  · rw [place, Position.line_behind, List.count_cons_of_ne (by decide)]
  · intro unescaped feed
    obtain ⟨front, more, rfl⟩ := List.append_of_mem feed
    obtain ⟨earlier, -, rfl, -⟩ := quoted.feed_escaped rfl
    apply unescaped
    refine ⟨before ++ '"' :: earlier, more ++ '"' :: behind, ?_⟩
    rw [split]
    simp

/-- Behind a quote that is escaped, a line break that is escaped. -/
theorem escaped_break_is_counted :
    ∃ s, tokenize "log \"\\\"\\\nx\"" = .ok s ∧ ⟨.text "\"\nx", ⟨1, 5⟩⟩ ∈ s.ahead ∧
      ∃ before body behind,
        "log \"\\\"\\\nx\"".toList = before ++ '"' :: body ++ '"' :: behind ∧
        Position.behind before = ⟨1, 5⟩ ∧
        (Position.behind (before ++ '"' :: body)).line = 1 + body.count '\n' ∧
        ∀ front more, body = front ++ '\n' :: more →
          ∃ earlier inner, front = earlier ++ ['\\'] ∧ Text.Quoted '"' earlier inner := by
  have read : tokenize "log \"\\\"\\\nx\"" = .ok
      { ahead := [⟨.word .logWord, ⟨1, 1⟩⟩, ⟨.text "\"\nx", ⟨1, 5⟩⟩, ⟨.newline, ⟨2, 3⟩⟩]
        stop := ⟨2, 3⟩ } := rfl
  have member : (⟨.text "\"\nx", ⟨1, 5⟩⟩ : Located Token) ∈
      [⟨.word .logWord, ⟨1, 1⟩⟩, ⟨.text "\"\nx", ⟨1, 5⟩⟩, ⟨.newline, ⟨2, 3⟩⟩] := by simp
  obtain ⟨before, body, behind, split, place, -, lines, escapes, -⟩ :=
    texts_break_at_escapes read member rfl
  exact ⟨_, read, member, before, body, behind, split, place.symm, lines, escapes⟩

/-- The source is accepted, and the text that it holds goes on behind the end of its line. -/
theorem text_runs_over_its_line :
    ∃ s, tokenize "log \"a\\\nb\"" = .ok s ∧
      s.ahead = [⟨.word .logWord, ⟨1, 1⟩⟩, ⟨.text "a\nb", ⟨1, 5⟩⟩, ⟨.newline, ⟨2, 3⟩⟩] ∧
      ∃ before body behind, "log \"a\\\nb\"".toList = before ++ '"' :: body ++ '"' :: behind ∧
        Position.behind before = ⟨1, 5⟩ ∧ Text.Quoted '"' body "a\nb".toList ∧ '\n' ∈ body ∧
        (Position.behind (before ++ '"' :: body)).line = 2 := by
  refine ⟨_, rfl, rfl, "log ".toList, "a\\\nb".toList, [], rfl, rfl, ?_, by decide, rfl⟩
  exact .plain (by decide) (by decide) (by decide) (.escaped '\n'
    (.plain (by decide) (by decide) (by decide) .nothing))

end JikiScript
end Walkthrough
