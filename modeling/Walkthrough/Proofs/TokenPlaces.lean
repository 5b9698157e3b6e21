import Mathlib.Data.List.TakeWhile
import Walkthrough.JavaScript.Lexer
import Walkthrough.JikiScript.Lexer
import Walkthrough.Text.Lines

/-! Where tokens stand. The scanners count lines while they go over the characters, and the lines of
a source are split off separately; both agree, so every token but a line break stands on a line of
the source that is not blank. -/

namespace Walkthrough

namespace Text

section Trim

variable {c : Char} {cs : List Char}

theorem mem_dropWhile {p : Char → Bool} (member : c ∈ cs) (stays : p c = false) :
    c ∈ cs.dropWhile p := by
  rw [← List.takeWhile_append_dropWhile (p := p) (l := cs), List.mem_append] at member
  rcases member with dropped | kept
  · have passes := List.mem_takeWhile_imp dropped
    rw [stays] at passes
    cases passes
  · exact kept

theorem mem_trimChars (member : c ∈ cs) (visible : isBlank c = false) : c ∈ trimChars cs := by
  unfold trimChars
  rw [List.mem_reverse]
  apply mem_dropWhile _ visible
  rw [List.mem_reverse]
  exact mem_dropWhile member visible

end Trim

/-- A line of the source that has something on it, counted from 1. -/
structure Shows (source : String) (line : Nat) : Prop where
  first : 1 ≤ line
  last : line ≤ (lines source).length
  text : lineText source line ≠ ""

/-- A scanner that is at the place has the characters before it. -/
def Reaches (source : List Char) (p : Position) (cs : List Char) : Prop :=
  ∃ before, source = before ++ cs ∧ p = Position.start.afterAll before

namespace Reaches

variable {source cs rest : List Char} {p : Position} {c : Char}

theorem begin (source : List Char) : Reaches source .start source :=
  ⟨[], rfl, rfl⟩

theorem behind (used : List Char) (h : Reaches source p (used ++ rest)) :
    Reaches source (p.afterAll used) rest := by
  obtain ⟨before, rfl, rfl⟩ := h
  refine ⟨before ++ used, by simp, ?_⟩
  unfold Position.afterAll
  rw [List.foldl_append]

theorem next (h : Reaches source p (c :: rest)) : Reaches source (p.after c) rest :=
  h.behind [c]

end Reaches

theorem line_afterAll (cs : List Char) (p : Position) :
    (p.afterAll cs).line = p.line + cs.count '\n' := by
  induction cs generalizing p with
  | nil => rfl
  | cons c rest ih =>
      change ((p.after c).afterAll rest).line = _
      rw [ih, List.count_cons]
      unfold Position.after
      by_cases feed : c = '\n'
      · simp [feed]
        omega
      · simp [feed]

theorem mem_splitLines (before rest : List Char) {c : Char} (noFeed : c ≠ '\n')
    (noReturn : c ≠ '\r') :
    ∃ line, (splitLines (before ++ c :: rest))[before.count '\n']? = some line ∧ c ∈ line := by
  induction before with
  | nil =>
      simp only [List.nil_append, List.count_nil, splitLines, if_neg noFeed]
      cases splitLines rest with
      | nil => exact ⟨[c], rfl, List.mem_singleton_self c⟩
      | cons line more => simp [noReturn]
  | cons b before ih =>
      obtain ⟨line, found, member⟩ := ih
      rw [List.cons_append, List.count_cons, splitLines]
      by_cases feed : b = '\n'
      · refine ⟨line, ?_, member⟩
        simpa [feed] using found
      · rw [if_neg feed]
        simp only [beq_iff_eq, feed, if_false, Nat.add_zero]
        cases split : splitLines (before ++ c :: rest) with
        | nil => simp [split] at found
        | cons first more =>
            rw [split] at found
            -- a character in front of a line is added to it, or dropped if it ends the line before
            cases position : before.count '\n' with
            | zero =>
                rw [position] at found
                cases found
                dsimp only
                split
                · exact ⟨line, rfl, member⟩
                · exact ⟨b :: line, rfl, List.mem_cons_of_mem b member⟩
            | succ n =>
                rw [position] at found
                dsimp only
                split
                · exact ⟨line, found, member⟩
                · exact ⟨line, found, member⟩

theorem isBlank_feed : isBlank '\n' = true := by decide

theorem isBlank_return : isBlank '\r' = true := by decide

theorem ne_of_visible {c d : Char} (visible : isBlank c = false) (blank : isBlank d = true) :
    c ≠ d := by
  rintro rfl
  rw [visible] at blank
  cases blank

theorem Reaches.shows {source : String} {p : Position} {c : Char} {rest : List Char}
    (h : Reaches source.toList p (c :: rest)) (visible : isBlank c = false) :
    Shows source p.line := by
  obtain ⟨before, split, rfl⟩ := h
  obtain ⟨line, found, member⟩ := mem_splitLines before rest
    (ne_of_visible visible isBlank_feed) (ne_of_visible visible isBlank_return)
  rw [line_afterAll]
  have place : Position.start.line + before.count '\n' = before.count '\n' + 1 := Nat.add_comm _ _
  have within : (lines source)[before.count '\n']? = some (String.ofList line) := by
    unfold lines
    rw [split, List.getElem?_map, found]
    rfl
  obtain ⟨inside, -⟩ := List.getElem?_eq_some_iff.mp within
  rw [place]
  refine ⟨Nat.le_add_left 1 _, inside, ?_⟩
  change trim ((lines source)[before.count '\n']?.getD "") ≠ ""
  rw [within, Option.getD_some, trim, String.toList_ofList]
  intro empty
  have chars := congrArg String.toList empty
  rw [String.toList_ofList] at chars
  have there := mem_trimChars member visible
  rw [chars] at there
  cases there

theorem Reaches.quotedBody {source : List Char} {quote : Char} {p stop : Position}
    {read cs contents rest : List Char} (h : Reaches source p cs)
    (closed : quotedBody quote p read cs = .ok (contents, stop, rest)) :
    Reaches source stop rest := by
  fun_induction Text.quotedBody quote p read cs with
  | case1 => cases closed
  | case2 => cases closed
  | case3 p read c rest ih => exact ih h.next.next closed
  | case4 =>
      cases closed
      exact h.next
  | case5 => cases closed
  | case6 p read c rest _ _ _ _ ih => exact ih h.next closed

theorem bounds_of_isDigit {c : Char} (digit : Number.isDigit c = true) :
    48 ≤ c.toNat ∧ c.toNat ≤ 57 := by
  unfold Number.isDigit at digit
  simp only [Bool.and_eq_true, decide_eq_true_eq, Char.le_def, UInt32.le_iff_toNat_le] at digit
  exact digit

theorem isBlank_of_isDigit {c : Char} (digit : Number.isDigit c = true) : isBlank c = false := by
  have bounds := bounds_of_isDigit digit
  simp [isBlank, inRanges, blankRanges]
  omega

theorem bounds_of_isLetter {c : Char} (letter : isLetter c = true) :
    97 ≤ c.toNat ∧ c.toNat ≤ 122 ∨ 65 ≤ c.toNat ∧ c.toNat ≤ 90 := by
  unfold isLetter at letter
  simp only [Bool.or_eq_true, Bool.and_eq_true, decide_eq_true_eq, Char.le_def,
    UInt32.le_iff_toNat_le] at letter
  exact letter

theorem isBlank_of_isLetter {c : Char} (letter : isLetter c = true) : isBlank c = false := by
  have bounds := bounds_of_isLetter letter
  simp [isBlank, inRanges, blankRanges]
  omega

theorem not_isDigit_of_isLetter {c : Char} (letter : isLetter c = true) :
    Number.isDigit c = false := by
  by_contra digit
  rw [Bool.not_eq_false] at digit
  have digits := bounds_of_isDigit digit
  have letters := bounds_of_isLetter letter
  omega

end Text

namespace JikiScript

open Text

variable {source cs rest left spelling : List Char} {p stop : Position} {c : Char}

theorem reaches_skipGaps (inComment : Bool) (h : Reaches source p cs) :
    Reaches source (skipGaps inComment p cs).1 (skipGaps inComment p cs).2 := by
  fun_induction skipGaps inComment p cs with
  | case1 => exact h
  | case2 => exact h
  | case3 p c rest _ ih => exact ih h.next
  | case4 inComment p c rest _ _ ih => exact ih h.next
  | case5 inComment p c rest _ _ _ ih => exact ih h.next
  | case6 => exact h

theorem isBlank_of_isNameStart (starts : isNameStart c = true) : isBlank c = false := by
  unfold isNameStart at starts
  rcases (Bool.or_eq_true _ _).mp starts with letter | line
  · exact isBlank_of_isLetter letter
  · rw [beq_iff_eq] at line
    subst line
    decide

theorem mark?_spelled {m : Mark} (read : mark? cs = some (m, spelling, rest)) :
    cs = spelling ++ rest ∧ ∃ c more, spelling = c :: more ∧ isBlank c = false := by
  unfold mark? at read
  split at read <;> cases read <;> exact ⟨rfl, _, _, rfl, by decide⟩

/-- A token was read from the characters before the scanner, and begins with a visible one unless it
is a line break. -/
theorem reaches_nextToken {token : Token} (h : Reaches source p (c :: rest))
    (read : nextToken p c rest = .ok (token, stop, left)) :
    Reaches source stop left ∧ (token ≠ .newline → isBlank c = false) := by
  unfold nextToken at read
  split at read
  · cases read
    exact ⟨h.next, fun other => absurd rfl other⟩
  · split at read
    · next quote =>
        split at read
        · next closed =>
            cases read
            exact ⟨Reaches.quotedBody h.next closed, fun _ => quote ▸ by decide⟩
        · cases read
    · split at read
      · next digit =>
          refine ⟨?_, fun _ => isBlank_of_isDigit digit⟩
          cases checked : checkNumber (c :: rest.takeWhile isNumberPart) with
          | error mistake =>
              dsimp only at read
              rw [checked] at read
              cases read
          | ok x =>
              dsimp only at read
              rw [checked] at read
              cases read
              apply Reaches.behind
              simpa using h
      · split at read
        · next starts =>
            cases read
            refine ⟨?_, fun _ => isBlank_of_isNameStart starts⟩
            apply Reaches.behind
            simpa using h
        · split at read
          · next spelled =>
              cases read
              obtain ⟨split, first, more, rfl, visible⟩ := mark?_spelled spelled
              rw [split] at h
              obtain ⟨rfl, -⟩ := List.cons.inj split
              exact ⟨h.behind _, fun _ => visible⟩
          · cases read

/-- Every token but a line break stands on a line of the source that is not blank. -/
theorem shows_scan {source : String} {bound : Nat} {fresh : Bool} {p stop : Position}
    {cs : List Char} {tokens : List (Located Token)} (h : Reaches source.toList p cs)
    (read : scan bound fresh p cs = .ok (tokens, stop)) :
    ∀ t ∈ tokens, t.item ≠ .newline → Shows source t.position.line := by
  induction bound generalizing fresh p cs tokens with
  | zero =>
      cases read
      exact nofun
  | succ bound ih =>
      have skipped := reaches_skipGaps false h
      unfold scan at read
      dsimp only at read
      split at read
      · cases read
        intro t member other
        split at member
        · cases member
        · rw [List.mem_singleton.mp member] at other
          exact absurd rfl other
      · next c rest ahead =>
          rw [ahead] at skipped
          split at read
          · cases read
          · next token next left here =>
              obtain ⟨further, visible⟩ := reaches_nextToken skipped here
              split at read
              · exact ih further read
              · cases later : scan bound (token = .newline) next left with
                | error mistake =>
                    rw [later] at read
                    cases read
                | ok result =>
                    rw [later] at read
                    cases read
                    intro t member other
                    rcases List.mem_cons.mp member with rfl | behind
                    · exact skipped.shows (visible other)
                    · exact ih further later t behind other

theorem shows_tokenize {source : String} {s : Stream Token} (read : tokenize source = .ok s) :
    ∀ t ∈ s.ahead, t.item ≠ .newline → Shows source t.position.line := by
  unfold tokenize at read
  dsimp only at read
  cases scanned : scan (source.toList.length + 1) true Position.start source.toList with
  | error mistake =>
      rw [scanned] at read
      cases read
  | ok result =>
      rw [scanned] at read
      cases read
      exact shows_scan (.begin _) scanned

end JikiScript

namespace JavaScript

open Text

variable {source cs rest left spelling : List Char} {p stop : Position} {c : Char}

theorem reaches_skipGaps {gap : Gap} (h : Reaches source p cs)
    (skipped : skipGaps gap p cs = .ok (stop, left)) :
    Reaches source stop left ∧ ∀ c rest, left = c :: rest → isBlank c = false := by
  fun_induction skipGaps gap p cs with
  | case1 => cases skipped
  | case2 =>
      cases skipped
      exact ⟨h, nofun⟩
  | case3 =>
      cases skipped
      exact ⟨h, nofun⟩
  | case4 _ p rest ih => exact ih h.next.next skipped
  | case5 start p c rest _ ih => exact ih h.next skipped
  | case6 p c rest ih => exact ih h.next skipped
  | case7 p rest ih => exact ih h.next.next skipped
  | case8 p rest ih => exact ih h.next.next skipped
  | case9 p c rest _ _ _ ih => exact ih h.next skipped
  | case10 p c rest _ _ visible =>
      cases skipped
      refine ⟨h, ?_⟩
      rintro _ _ ⟨⟩
      exact eq_false_of_ne_true visible

theorem mark?_spelled {m : Mark} (read : mark? cs = some (m, spelling, rest)) :
    cs = spelling ++ rest := by
  unfold mark? at read
  split at read <;> cases read <;> rfl

theorem begins_fraction (cs : List Char) : fraction cs <+: cs := by
  unfold fraction
  split
  · next rest =>
      dsimp only
      split
      · exact List.nil_prefix
      · exact (List.prefix_cons_inj '.').mpr <| List.takeWhile_prefix Number.isDigit
  · exact List.nil_prefix

theorem numberLexeme_append (cs : List Char) :
    numberLexeme cs ++ cs.drop (numberLexeme cs).length = cs := by
  rw [← List.prefix_iff_eq_append]
  have behind := (List.prefix_append_right_inj (cs.takeWhile Number.isDigit)).mpr
    (begins_fraction (cs.dropWhile Number.isDigit))
  rwa [List.takeWhile_append_dropWhile] at behind

theorem reaches_nextToken {token : Token} (h : Reaches source p (c :: rest))
    (read : nextToken p c rest = .ok (token, stop, left)) : Reaches source stop left := by
  unfold nextToken at read
  split at read
  · split at read
    · next closed =>
        cases read
        exact Reaches.quotedBody h.next closed
    · cases read
  · split at read
    · dsimp only at read
      split at read
      · cases read
        apply Reaches.behind
        rwa [numberLexeme_append]
      · cases read
    · split at read
      · cases read
        apply Reaches.behind
        simpa using h
      · split at read
        · next spelled =>
            cases read
            apply Reaches.behind
            rwa [← mark?_spelled spelled]
        · cases read

theorem shows_scan {source : String} {bound : Nat} {p stop : Position} {cs : List Char}
    {tokens : List (Located Token)} (h : Reaches source.toList p cs)
    (read : scan bound p cs = .ok (tokens, stop)) :
    ∀ t ∈ tokens, Shows source t.position.line := by
  induction bound generalizing p cs tokens with
  | zero =>
      cases read
      exact nofun
  | succ bound ih =>
      unfold scan at read
      cases skipped : skipGaps .blanks p cs with
      | error mistake =>
          rw [skipped] at read
          cases read
      | ok ahead =>
          obtain ⟨place, cs'⟩ := ahead
          obtain ⟨further, visible⟩ := reaches_skipGaps h skipped
          simp only [skipped, bind, Except.bind] at read
          split at read
          · cases read
            exact nofun
          · next c rest =>
              split at read
              · cases read
              · next token next left here =>
                  cases later : scan bound next left with
                  | error mistake =>
                      rw [later] at read
                      cases read
                  | ok result =>
                      rw [later] at read
                      cases read
                      intro t member
                      rcases List.mem_cons.mp member with rfl | behind
                      · exact further.shows (visible c rest rfl)
                      · exact ih (reaches_nextToken further here) later t behind

theorem shows_tokenize {source : String} {s : Stream Token} (read : tokenize source = .ok s) :
    ∀ t ∈ s.ahead, Shows source t.position.line := by
  unfold tokenize at read
  dsimp only at read
  cases scanned : scan (source.toList.length + 1) Position.start source.toList with
  | error mistake =>
      rw [scanned] at read
      cases read
  | ok result =>
      rw [scanned] at read
      cases read
      exact shows_scan (.begin _) scanned

end JavaScript
end Walkthrough
