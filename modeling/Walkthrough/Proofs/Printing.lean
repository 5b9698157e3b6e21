import Mathlib.Data.List.Forall2
import Walkthrough.Proofs.Numerals

/-! Reading undoes printing. Tokens are written down with one blank between each two, a text with
its quotes, backslashes and line breaks escaped; the scanner finds the same tokens again. For a
single token that holds wherever it is written, as long as a blank or nothing follows it, and the
spacing carries it from token to token. -/

namespace Walkthrough

/-- Lexemes in a row, with one blank between each two. -/
def spaced (lexemes : List (List Char)) : List Char :=
  [' '].intercalate lexemes

/-- Lexemes in a row, each behind a blank. -/
def trail (lexemes : List (List Char)) : List Char :=
  lexemes.flatMap (' ' :: ·)

theorem spaced_cons (lexeme : List Char) (more : List (List Char)) :
    spaced (lexeme :: more) = lexeme ++ trail more := by
  unfold spaced
  induction more generalizing lexeme with
  | nil => simp [List.intercalate, trail]
  | cons next more ih =>
      rw [List.intercalate_cons_cons, ih]
      simp [trail]

theorem length_le_trail (lexemes : List (List Char)) : lexemes.length ≤ (trail lexemes).length := by
  induction lexemes with
  | nil => exact Nat.zero_le _
  | cons lexeme more ih =>
      simp only [trail, List.flatMap_cons, List.length_append, List.length_cons] at ih ⊢
      omega

/-- Nothing follows, or a blank does. -/
def EndsWord (following : List Char) : Prop :=
  ∀ d ∈ following.head?, d = ' '

theorem endsWord_trail (lexemes : List (List Char)) : EndsWord (trail lexemes) := by
  intro d first
  cases lexemes with
  | nil => cases first
  | cons lexeme more =>
      cases first
      rfl

section Runs

variable {p : Char → Bool} {cs following : List Char}

theorem EndsWord.takeWhile (ends : EndsWord following) (stops : p ' ' = false)
    (parts : ∀ d ∈ cs, p d = true) : (cs ++ following).takeWhile p = cs := by
  rw [List.takeWhile_append_of_pos parts]
  cases following with
  | nil => simp
  | cons d rest => simp [ends d rfl, stops]

theorem EndsWord.dropWhile (ends : EndsWord following) (stops : p ' ' = false)
    (parts : ∀ d ∈ cs, p d = true) : (cs ++ following).dropWhile p = following := by
  rw [List.dropWhile_append_of_pos parts]
  cases following with
  | nil => rfl
  | cons d rest => simp [ends d rfl, stops]

end Runs

section Scanner

variable {T E : Type}

/-- The tokens are found, wherever they stand. -/
def Finds (result : Except E (List (Located T) × Position)) (tokens : List T) : Prop :=
  ∃ found stop, result = .ok (found, stop) ∧ found.map (·.item) = tokens

/-- A scanner passes over blanks, and finds a token in what is written for it if a blank or nothing
follows; at the end there is an ending. -/
structure Undoes (scan : Nat → Position → List Char → Except E (List (Located T) × Position))
    (Writes : T → List Char → Prop) (ending : List T) : Prop where
  done : ∀ bound p, Finds (scan (bound + 1) p []) ending
  blank : ∀ bound p cs, scan (bound + 1) p (' ' :: cs) = scan (bound + 1) (p.after ' ') cs
  lexeme : ∀ {token lexeme following tokens bound p}, Writes token lexeme → EndsWord following →
    Finds (scan bound (p.afterAll lexeme) following) tokens →
    Finds (scan (bound + 1) p (lexeme ++ following)) (token :: tokens)

variable {scan : Nat → Position → List Char → Except E (List (Located T) × Position)}
  {Writes : T → List Char → Prop} {ending tokens : List T} {lexemes : List (List Char)}

theorem Undoes.trail (h : Undoes scan Writes ending) (writes : List.Forall₂ Writes tokens lexemes)
    {bound : Nat} (room : lexemes.length < bound) (p : Position) :
    Finds (scan bound p (trail lexemes)) (tokens ++ ending) := by
  induction writes generalizing bound p with
  | nil =>
      obtain ⟨bound, rfl⟩ := Nat.exists_eq_add_one.mpr room
      exact h.done bound p
  | @cons token lexeme tokens lexemes written _ ih =>
      obtain ⟨bound, rfl⟩ := Nat.exists_eq_add_one.mpr (Nat.zero_lt_of_lt room)
      -- the blank costs no round, so that each lexeme has one
      change Finds (scan (bound + 1) p (' ' :: (lexeme ++ Walkthrough.trail lexemes))) _
      rw [h.blank]
      apply h.lexeme written (endsWord_trail lexemes)
      exact ih (Nat.lt_of_succ_lt_succ room) _

end Scanner

namespace Text

def escapeChar (quote c : Char) : List Char :=
  if c = '\n' then ['\\', 'n'] else if c = quote ∨ c = '\\' then ['\\', c] else [c]

def quotedWith (quote : Char) (s : String) : List Char :=
  quote :: s.toList.flatMap (escapeChar quote) ++ [quote]

variable {quote : Char} {body contents : List Char}

theorem quoted_escaped (plain : unescape quote = quote) (contents : List Char) :
    Quoted quote (contents.flatMap (escapeChar quote)) contents := by
  induction contents with
  | nil => exact .nothing
  | cons c contents ih =>
      rw [List.flatMap_cons]
      unfold escapeChar
      split
      · next feed =>
          subst feed
          exact .escaped 'n' ih
      · next noFeed =>
          split
          · next special =>
              have same : unescape c = c := by
                rcases special with rfl | rfl
                · exact plain
                · rfl
              have written := Quoted.escaped c ih
              rwa [same] at written
          · next ordinary =>
              rw [not_or] at ordinary
              exact .plain ordinary.1 noFeed ordinary.2 ih

theorem Quoted.quotedBody (h : Quoted quote body contents) (other : quote ≠ '\\') (p : Position)
    (read rest : List Char) : Text.quotedBody quote p read (body ++ quote :: rest) =
      .ok (read.reverse ++ contents, p.afterAll (body ++ [quote]), rest) := by
  induction h generalizing p read with
  | nothing => simp [Text.quotedBody, other, Position.afterAll]
  | plain noQuote noFeed noSlash _ ih =>
      simp [Text.quotedBody, noQuote, noFeed, noSlash, ih, Position.afterAll]
  | escaped c _ ih => simp [Text.quotedBody, ih, Position.afterAll]

end Text

namespace JikiScript

variable {c : Char} {cs rest following lexeme : List Char} {p : Position} {token : Token}

theorem Keyword.ofSpelling?_spelling (k : Keyword) : Keyword.ofSpelling? k.spelling = some k := by
  cases k <;> rfl

theorem Keyword.isWord_spelling (k : Keyword) :
    ∃ c cs, k.spelling.toList = c :: cs ∧ isNameStart c = true ∧ ∀ d ∈ cs, isNamePart d = true := by
  cases k <;> exact ⟨_, _, rfl, rfl, List.all_eq_true.mp rfl⟩

theorem isNamePart_of_isNameStart (starts : isNameStart c = true) : isNamePart c = true := by
  unfold isNameStart at starts
  unfold isNamePart
  grind

theorem not_isDigit_of_isNameStart (starts : isNameStart c = true) : Number.isDigit c = false := by
  rcases (Bool.or_eq_true _ _).mp starts with letter | line
  · exact Text.not_isDigit_of_isLetter letter
  · rw [beq_iff_eq] at line
    subst line
    rfl

theorem skipGaps_visible (visible : isGap c = false) (noComment : c ≠ '/' ∨ rest.head? ≠ some '/') :
    skipGaps false p (c :: rest) = (p, c :: rest) := by
  unfold skipGaps
  rw [if_neg Bool.false_ne_true, if_neg (by simp [visible])]
  apply if_neg
  simp only [Bool.and_eq_true, decide_eq_true_eq]
  tauto

theorem skipGaps_namePart (part : isNamePart c = true) :
    skipGaps false p (c :: rest) = (p, c :: rest) := by
  apply skipGaps_visible
  · by_contra gap
    simp only [isGap, Bool.not_eq_false, Bool.or_eq_true, beq_iff_eq] at gap
    rcases gap with (rfl | rfl) | rfl <;> exact absurd part (by decide)
  · left
    rintro rfl
    exact absurd part (by decide)

/-- The scanner stands in front of the token, and reads it up to what follows. -/
structure ReadsNext (p : Position) (token : Token) (lexeme following : List Char) : Prop where
  stays : skipGaps false p (lexeme ++ following) = (p, lexeme ++ following)
  reads : ∃ c rest, lexeme ++ following = c :: rest ∧
    nextToken p c rest = .ok (token, p.afterAll lexeme, following)

theorem readsNext_text {body contents : List Char} (quoted : Text.Quoted '"' body contents) :
    ReadsNext p (.text (String.ofList contents)) ('"' :: body ++ ['"']) following := by
  constructor
  · exact skipGaps_visible rfl (.inl (by decide))
  · refine ⟨'"', body ++ '"' :: following, by simp, ?_⟩
    unfold nextToken
    rw [if_neg (by decide), if_pos rfl, quoted.quotedBody (by decide)]
    rfl

theorem readsNext_number {x : Float} (digit : Number.isDigit c = true)
    (parts : ∀ d ∈ cs, isNumberPart d = true) (checked : checkNumber (c :: cs) = .ok x)
    (ends : EndsWord following) : ReadsNext p (.number x) (c :: cs) following := by
  have feed : c ≠ '\n' := Number.ne_of_isDigit digit rfl
  have quote : c ≠ '"' := Number.ne_of_isDigit digit rfl
  constructor
  · exact skipGaps_namePart (by simp [isNamePart, digit])
  · refine ⟨c, cs ++ following, rfl, ?_⟩
    unfold nextToken
    rw [if_neg feed, if_neg quote, if_pos digit, ends.takeWhile rfl parts, ends.dropWhile rfl parts]
    dsimp only
    rw [checked]
    rfl

theorem readsNext_word (starts : isNameStart c = true) (parts : ∀ d ∈ cs, isNamePart d = true)
    (ends : EndsWord following) :
    ReadsNext p (wordToken (String.ofList (c :: cs))) (c :: cs) following := by
  have feed : c ≠ '\n' := by
    rintro rfl
    exact absurd starts (by decide)
  have quote : c ≠ '"' := by
    rintro rfl
    exact absurd starts (by decide)
  constructor
  · exact skipGaps_namePart (isNamePart_of_isNameStart starts)
  · refine ⟨c, cs ++ following, rfl, ?_⟩
    unfold nextToken
    rw [if_neg feed, if_neg quote, if_neg (by simp [not_isDigit_of_isNameStart starts]),
      if_pos starts, ends.takeWhile rfl parts, ends.dropWhile rfl parts]

theorem readsNext_mark (m : Mark) (ends : EndsWord following) :
    ReadsNext p (.mark m) m.spelling.toList following := by
  cases following with
  | nil => cases m <;> exact ⟨rfl, _, _, rfl, rfl⟩
  | cons d rest =>
      cases ends d rfl
      cases m <;> exact ⟨rfl, _, _, rfl, rfl⟩

theorem readsNext_threeSigns : ReadsNext p (.mark .eqEq) ['=', '=', '='] following :=
  ⟨rfl, _, _, rfl, rfl⟩

/-- What writes a token is read as that token if a blank or nothing follows. -/
theorem IsLexeme.readsNext (writes : IsLexeme token lexeme) (other : token ≠ .newline)
    (ends : EndsWord following) : ReadsNext p token lexeme following := by
  cases writes with
  | newline => exact absurd rfl other
  | text quoted => exact readsNext_text quoted
  | number digit parts checked => exact readsNext_number digit parts checked ends
  | @word _ k spelled =>
      obtain ⟨c, cs, spelling, starts, parts⟩ := k.isWord_spelling
      have written := congrArg String.toList spelled
      rw [String.toList_ofList, spelling] at written
      subst written
      have named : wordToken (String.ofList (c :: cs)) = .word k := by
        rw [spelled, wordToken, Keyword.ofSpelling?_spelling]
      exact named ▸ readsNext_word starts parts ends
  | @name c cs starts parts unreserved =>
      have named : wordToken (String.ofList (c :: cs)) = .name (String.ofList (c :: cs)) := by
        rw [wordToken, unreserved]
      exact named ▸ readsNext_word starts parts ends
  | @mark _ m spelled =>
      have written := congrArg String.toList spelled
      rw [String.toList_ofList] at written
      exact written ▸ readsNext_mark m ends
  | threeSigns => exact readsNext_threeSigns

theorem ReadsNext.scan {tokens : List Token} (h : ReadsNext p token lexeme following)
    (other : token ≠ .newline) {bound : Nat} (fresh : Bool)
    (found : Finds (scan bound false (p.afterAll lexeme) following) tokens) :
    Finds (scan (bound + 1) fresh p (lexeme ++ following)) (token :: tokens) := by
  obtain ⟨c, rest, split, read⟩ := h.reads
  obtain ⟨later, stop, scanned, rfl⟩ := found
  have stays := h.stays
  rw [split] at stays ⊢
  refine ⟨⟨token, p⟩ :: later, stop, ?_, rfl⟩
  unfold JikiScript.scan
  rw [stays]
  simp [read, other, scanned]

theorem undoes_writing : Undoes (scan · false) (fun token lexeme => IsLexeme token lexeme ∧
    token ≠ .newline) [.newline] where
  done bound p := ⟨[⟨.newline, p⟩], p, rfl, rfl⟩
  blank bound p cs := by
    have skipped : skipGaps false p (' ' :: cs) = skipGaps false (p.after ' ') cs := rfl
    rw [JikiScript.scan, JikiScript.scan, skipped]
  lexeme writes ends found := (writes.1.readsNext writes.2 ends).scan writes.2 false found

/-- What writes some tokens, with blanks in between, is read as these tokens and a line break. -/
theorem tokenize_spaced {tokens : List Token} {lexemes : List (List Char)}
    (writes : List.Forall₂ (fun token lexeme => IsLexeme token lexeme ∧ token ≠ .newline)
      tokens lexemes) :
    ∃ s, tokenize (String.ofList (spaced lexemes)) = .ok s ∧
      s.ahead.map (·.item) = tokens ++ if tokens.isEmpty then [] else [.newline] := by
  have found : Finds (scan ((spaced lexemes).length + 1) true .start (spaced lexemes))
      (tokens ++ if tokens.isEmpty then [] else [.newline]) := by
    cases writes with
    | nil => exact ⟨[], .start, rfl, rfl⟩
    | @cons token lexeme tokens lexemes written more =>
        -- the first lexeme has no blank in front, and stands at the start of a line
        rw [spaced_cons]
        have nonempty := List.length_pos_of_ne_nil written.1.ne_nil
        have room := length_le_trail lexemes
        apply (written.1.readsNext written.2 (endsWord_trail lexemes)).scan written.2 true
        apply undoes_writing.trail more
        rw [List.length_append]
        omega
  obtain ⟨ahead, stop, scanned, items⟩ := found
  refine ⟨{ ahead, stop }, ?_, items⟩
  unfold tokenize
  rw [String.toList_ofList]
  dsimp only
  rw [scanned]
  rfl

/-- The characters print the token: a number by the numeral that it was given by, a text in its
quotes, and all else by its spelling. -/
inductive Printed : Token → List Char → Prop
  | number {cs : List Char} {x : Float} : Number.IsDecimal cs → ¬ Number.HasIdleZero cs →
      Number.read? cs = some x → Printed (.number x) cs
  | text (s : String) : Printed (.text s) (Text.quotedWith '"' s)
  | name {c : Char} {cs : List Char} : isNameStart c = true → (∀ d ∈ cs, isNamePart d = true) →
      Keyword.ofSpelling? (String.ofList (c :: cs)) = none →
      Printed (.name (String.ofList (c :: cs))) (c :: cs)
  | word (k : Keyword) : Printed (.word k) k.spelling.toList
  | mark (m : Mark) : Printed (.mark m) m.spelling.toList

theorem Printed.isLexeme (printed : Printed token lexeme) : IsLexeme token lexeme := by
  cases printed with
  | @number cs x decimal tidy read =>
      have run := isNumberRun_of_isDecimal decimal
      have checked := (checkNumber_eq_ok run).mpr ⟨decimal, tidy, read⟩
      obtain ⟨c, rest, rfl⟩ := List.exists_cons_of_ne_nil decimal.ne_nil
      apply IsLexeme.number (decimal.head_isDigit c rfl) _ checked
      exact fun d member => run.parts d (List.mem_cons_of_mem c member)
  | text s =>
      have quoted : Text.Quoted '"' _ s.toList := Text.quoted_escaped rfl s.toList
      have written := IsLexeme.text quoted
      rwa [String.ofList_toList] at written
  | name starts parts unreserved => exact .name starts parts unreserved
  | word k => exact .word String.ofList_toList
  | mark m => exact .mark String.ofList_toList

end JikiScript

namespace JavaScript

variable {c : Char} {cs rest following lexeme : List Char} {p : Position} {token : Token}

theorem Keyword.ofSpelling?_spelling (k : Keyword) : Keyword.ofSpelling? k.spelling = some k := by
  cases k <;> rfl

theorem Keyword.isWord_spelling (k : Keyword) :
    ∃ c cs, k.spelling.toList = c :: cs ∧ isNameStart c = true ∧ ∀ d ∈ cs, isNamePart d = true := by
  cases k <;> exact ⟨_, _, rfl, rfl, List.all_eq_true.mp rfl⟩

theorem not_isDigit_of_isNameStart (starts : isNameStart c = true) : Number.isDigit c = false := by
  simp only [isNameStart, Bool.or_eq_true, beq_iff_eq] at starts
  rcases starts with (letter | rfl) | rfl
  · exact Text.not_isDigit_of_isLetter letter
  · rfl
  · rfl

theorem isBlank_of_isNamePart (part : isNamePart c = true) : Text.isBlank c = false := by
  simp only [isNamePart, isNameStart, Bool.or_eq_true, beq_iff_eq] at part
  rcases part with ((letter | rfl) | rfl) | digit
  · exact Text.isBlank_of_isLetter letter
  · rfl
  · rfl
  · exact Text.isBlank_of_isDigit digit

theorem skipGaps_visible (visible : Text.isBlank c = false) (noComment : c ≠ '/') :
    skipGaps .blanks p (c :: rest) = .ok (p, c :: rest) := by
  simp [skipGaps, visible, noComment]

/-- The scanner stands in front of the token, and reads it up to what follows. -/
structure ReadsNext (p : Position) (token : Token) (lexeme following : List Char) : Prop where
  stays : skipGaps .blanks p (lexeme ++ following) = .ok (p, lexeme ++ following)
  reads : ∃ c rest, lexeme ++ following = c :: rest ∧
    nextToken p c rest = .ok (token, p.afterAll lexeme, following)

theorem readsNext_text {quote : Char} {body contents : List Char}
    (kind : quote = '"' ∨ quote = '\'') (quoted : Text.Quoted quote body contents) :
    ReadsNext p (.text (String.ofList contents)) (quote :: body ++ [quote]) following := by
  constructor
  · rcases kind with rfl | rfl <;> exact skipGaps_visible rfl (by decide)
  · have other : quote ≠ '\\' := by
      rcases kind with rfl | rfl <;> decide
    refine ⟨quote, body ++ quote :: following, by simp, ?_⟩
    unfold nextToken
    rw [if_pos (by simpa using kind), quoted.quotedBody other]
    rfl

theorem fraction_following (ends : EndsWord following) : fraction following = [] := by
  cases following with
  | nil => rfl
  | cons d rest =>
      cases ends d rfl
      rfl

theorem numberLexeme_decimal (decimal : Number.IsDecimal cs) (ends : EndsWord following) :
    numberLexeme (cs ++ following) = cs := by
  unfold numberLexeme
  cases decimal with
  | whole _ digits =>
      rw [ends.takeWhile rfl digits, ends.dropWhile rfl digits, fraction_following ends,
        List.append_nil]
  | @pointed ds fs _ digits nonempty more =>
      have point : Number.isDigit '.' = false := by decide
      simp [List.takeWhile_append_of_pos digits, List.dropWhile_append_of_pos digits, point,
        fraction, ends.takeWhile rfl more, nonempty]

theorem readsNext_number {x : Float} (decimal : Number.IsDecimal cs)
    (read : Number.read? cs = some x) (ends : EndsWord following) :
    ReadsNext p (.number x) cs following := by
  have whole := numberLexeme_decimal decimal ends
  have begins := decimal.head_isDigit
  obtain ⟨c, cs, rfl⟩ := List.exists_cons_of_ne_nil decimal.ne_nil
  have digit := begins c rfl
  constructor
  · exact skipGaps_visible (Text.isBlank_of_isDigit digit) (Number.ne_of_isDigit digit rfl)
  · refine ⟨c, cs ++ following, rfl, ?_⟩
    have double : c ≠ '"' := Number.ne_of_isDigit digit rfl
    have single : c ≠ '\'' := Number.ne_of_isDigit digit rfl
    rw [List.cons_append] at whole
    unfold nextToken
    rw [if_neg (by simp [double, single]), if_pos digit]
    dsimp only
    rw [whole, read, ← List.cons_append, List.drop_left]

theorem readsNext_word (starts : isNameStart c = true) (parts : ∀ d ∈ cs, isNamePart d = true)
    (ends : EndsWord following) :
    ReadsNext p (wordToken (String.ofList (c :: cs))) (c :: cs) following := by
  have part : isNamePart c = true := by simp [isNamePart, starts]
  have quote : ¬(c = '"' ∨ c = '\'') := by
    rintro (rfl | rfl) <;> exact absurd starts (by decide)
  constructor
  · apply skipGaps_visible (isBlank_of_isNamePart part)
    rintro rfl
    exact absurd part (by decide)
  · refine ⟨c, cs ++ following, rfl, ?_⟩
    unfold nextToken
    rw [if_neg (by simpa using quote), if_neg (by simp [not_isDigit_of_isNameStart starts]),
      if_pos starts, ends.takeWhile rfl parts, ends.dropWhile rfl parts]

theorem readsNext_mark (m : Mark) (ends : EndsWord following) :
    ReadsNext p (.mark m) m.spelling.toList following := by
  cases following with
  | nil => cases m <;> exact ⟨rfl, _, _, rfl, rfl⟩
  | cons d rest =>
      cases ends d rfl
      cases m <;> exact ⟨rfl, _, _, rfl, rfl⟩

theorem isDecimal_of_fraction {ds fraction : List Char} (nonempty : ds ≠ [])
    (digits : ∀ d ∈ ds, Number.isDigit d = true) (h : IsFraction fraction) :
    Number.IsDecimal (ds ++ fraction) := by
  cases h with
  | nothing =>
      rw [List.append_nil]
      exact .whole nonempty digits
  | digits more others => exact .pointed nonempty digits more others

/-- What writes a token is read as that token if a blank or nothing follows. -/
theorem IsLexeme.readsNext (writes : IsLexeme token lexeme) (ends : EndsWord following) :
    ReadsNext p token lexeme following := by
  cases writes with
  | text kind quoted => exact readsNext_text kind quoted
  | number nonempty digits fraction read =>
      exact readsNext_number (isDecimal_of_fraction nonempty digits fraction) read ends
  | @word _ k spelled =>
      obtain ⟨c, cs, spelling, starts, parts⟩ := k.isWord_spelling
      have written := congrArg String.toList spelled
      rw [String.toList_ofList, spelling] at written
      subst written
      have named : wordToken (String.ofList (c :: cs)) = .word k := by
        rw [spelled, wordToken, Keyword.ofSpelling?_spelling]
      exact named ▸ readsNext_word starts parts ends
  | @name c cs starts parts unreserved =>
      have named : wordToken (String.ofList (c :: cs)) = .name (String.ofList (c :: cs)) := by
        rw [wordToken, unreserved]
      exact named ▸ readsNext_word starts parts ends
  | @mark _ m spelled =>
      have written := congrArg String.toList spelled
      rw [String.toList_ofList] at written
      exact written ▸ readsNext_mark m ends

theorem ReadsNext.scan {tokens : List Token} (h : ReadsNext p token lexeme following) {bound : Nat}
    (found : Finds (scan bound (p.afterAll lexeme) following) tokens) :
    Finds (scan (bound + 1) p (lexeme ++ following)) (token :: tokens) := by
  obtain ⟨c, rest, split, read⟩ := h.reads
  obtain ⟨later, stop, scanned, rfl⟩ := found
  have stays := h.stays
  rw [split] at stays ⊢
  refine ⟨⟨token, p⟩ :: later, stop, ?_, rfl⟩
  unfold JavaScript.scan
  simp [stays, read, scanned, bind, Except.bind]
  rfl

theorem undoes_writing : Undoes scan IsLexeme [] where
  done bound p := ⟨[], p, rfl, rfl⟩
  blank bound p cs := by
    have skipped : skipGaps .blanks p (' ' :: cs) = skipGaps .blanks (p.after ' ') cs := rfl
    rw [JavaScript.scan, JavaScript.scan, skipped]
  lexeme writes ends found := (writes.readsNext ends).scan found

/-- What writes some tokens, with blanks in between, is read as these tokens. -/
theorem tokenize_spaced {tokens : List Token} {lexemes : List (List Char)}
    (writes : List.Forall₂ IsLexeme tokens lexemes) :
    ∃ s, tokenize (String.ofList (spaced lexemes)) = .ok s ∧ s.ahead.map (·.item) = tokens := by
  have found : Finds (scan ((spaced lexemes).length + 1) .start (spaced lexemes)) tokens := by
    cases writes with
    | nil => exact ⟨[], .start, rfl, rfl⟩
    | @cons token lexeme tokens lexemes written more =>
        rw [spaced_cons]
        have nonempty := List.length_pos_of_ne_nil written.ne_nil
        have room := length_le_trail lexemes
        apply (written.readsNext (endsWord_trail lexemes)).scan
        rw [← List.append_nil tokens]
        apply undoes_writing.trail more
        rw [List.length_append]
        omega
  obtain ⟨ahead, stop, scanned, items⟩ := found
  refine ⟨{ ahead, stop }, ?_, items⟩
  unfold tokenize
  rw [String.toList_ofList]
  dsimp only
  rw [scanned]
  rfl

/-- The characters print the token: a number by the numeral that it was given by, a text in quotes
of one kind or the other, and all else by its spelling. -/
inductive Printed : Token → List Char → Prop
  | number {cs : List Char} {x : Float} : Number.IsDecimal cs → Number.read? cs = some x →
      Printed (.number x) cs
  | text (s : String) {quote : Char} : quote = '"' ∨ quote = '\'' →
      Printed (.text s) (Text.quotedWith quote s)
  | name {c : Char} {cs : List Char} : isNameStart c = true → (∀ d ∈ cs, isNamePart d = true) →
      Keyword.ofSpelling? (String.ofList (c :: cs)) = none →
      Printed (.name (String.ofList (c :: cs))) (c :: cs)
  | word (k : Keyword) : Printed (.word k) k.spelling.toList
  | mark (m : Mark) : Printed (.mark m) m.spelling.toList

theorem Printed.isLexeme (printed : Printed token lexeme) : IsLexeme token lexeme := by
  cases printed with
  | number decimal read =>
      cases decimal with
      | whole nonempty digits =>
          rw [← List.append_nil lexeme] at read ⊢
          exact .number nonempty digits .nothing read
      | pointed nonempty digits more others =>
          exact .number nonempty digits (.digits more others) read
  | @text s quote kind =>
      have plain : Text.unescape quote = quote := by
        rcases kind with rfl | rfl <;> rfl
      have written := IsLexeme.text kind (Text.quoted_escaped plain s.toList)
      rwa [String.ofList_toList] at written
  | name starts parts unreserved => exact .name starts parts unreserved
  | word k => exact .word String.ofList_toList
  | mark m => exact .mark String.ofList_toList

end JavaScript

/-- Reading undoes printing. In both languages, any tokens but line breaks that are printed one by
one, with one blank between each two, are accepted by the scanner, and it finds these tokens and no
others; in JikiScript the line break that ends the last line comes behind them. -/
theorem reading_undoes_printing :
    (∀ tokens lexemes, List.Forall₂ JikiScript.Printed tokens lexemes →
      ∃ s, JikiScript.tokenize (String.ofList (spaced lexemes)) = .ok s ∧
        s.ahead.map (·.item) = tokens ++ if tokens.isEmpty then [] else [.newline]) ∧
    (∀ tokens lexemes, List.Forall₂ JavaScript.Printed tokens lexemes →
      ∃ s, JavaScript.tokenize (String.ofList (spaced lexemes)) = .ok s ∧
        s.ahead.map (·.item) = tokens) := by
  constructor
  · intro tokens lexemes printed
    apply JikiScript.tokenize_spaced
    apply printed.imp
    intro token lexeme one
    refine ⟨one.isLexeme, ?_⟩
    rintro rfl
    cases one
  · intro tokens lexemes printed
    exact JavaScript.tokenize_spaced (printed.imp fun _ _ => JavaScript.Printed.isLexeme)

/-- Two slashes with a blank between them are no comment, signs stay apart, a keyword may begin a
name, and a text may hold quotes, backslashes, line breaks and what looks like a comment. -/
theorem crowded_tokens_come_back :
    (∃ x, List.Forall₂ JikiScript.Printed
      [.mark .slash, .mark .slash, .mark .eq, .mark .eqEq, .word .nextWord, .name "nexts",
        .number x, .text "a\"\\\n//"]
      [['/'], ['/'], ['='], ['=', '='], ['n', 'e', 'x', 't'], ['n', 'e', 'x', 't', 's'],
        ['0', '.', '5', '0'], Text.quotedWith '"' "a\"\\\n//"] ∧
      ∃ s, JikiScript.tokenize "/ / = == next nexts 0.50 \"a\\\"\\\\\\n//\"" = .ok s ∧
        s.ahead.map (·.item) =
          [.mark .slash, .mark .slash, .mark .eq, .mark .eqEq, .word .nextWord, .name "nexts",
            .number x, .text "a\"\\\n//", .newline]) ∧
    (∃ x, List.Forall₂ JavaScript.Printed
      [.mark .minusMinus, .mark .minus, .number x, .mark .dot, .name "of$", .text "it's"]
      [['-', '-'], ['-'], ['0', '0', '7'], ['.'], ['o', 'f', '$'], Text.quotedWith '\'' "it's"] ∧
      ∃ s, JavaScript.tokenize "-- - 007 . of$ 'it\\'s'" = .ok s ∧
        s.ahead.map (·.item) =
          [.mark .minusMinus, .mark .minus, .number x, .mark .dot, .name "of$", .text "it's"]) := by
  constructor
  · have decimal : Number.IsDecimal ['0', '.', '5', '0'] :=
      @Number.IsDecimal.pointed ['0'] ['5', '0'] nofun (List.all_eq_true.mp rfl) nofun
        (List.all_eq_true.mp rfl)
    have tidy : ¬ Number.HasIdleZero ['0', '.', '5', '0'] := by
      rintro ⟨d, rest, split, other⟩
      cases split
      exact other rfl
    obtain ⟨x, read⟩ := decimal.read?
    have printed : List.Forall₂ JikiScript.Printed _ _ :=
      .cons (.mark .slash) (.cons (.mark .slash) (.cons (.mark .eq) (.cons (.mark .eqEq)
        (.cons (.word .nextWord) (.cons (@JikiScript.Printed.name 'n' ['e', 'x', 't', 's']
          rfl (List.all_eq_true.mp rfl) rfl) (.cons (.number decimal tidy read)
            (.cons (.text "a\"\\\n//") .nil)))))))
    obtain ⟨s, accepted, items⟩ := reading_undoes_printing.1 _ _ printed
    exact ⟨x, printed, s, accepted, items⟩
  · have decimal : Number.IsDecimal ['0', '0', '7'] := .whole nofun (List.all_eq_true.mp rfl)
    obtain ⟨x, read⟩ := decimal.read?
    have printed : List.Forall₂ JavaScript.Printed _ _ :=
      .cons (.mark .minusMinus) (.cons (.mark .minus) (.cons (.number decimal read)
        (.cons (.mark .dot) (.cons (@JavaScript.Printed.name 'o' ['f', '$'] rfl
          (List.all_eq_true.mp rfl) rfl) (.cons (.text "it's" (.inr rfl)) .nil)))))
    obtain ⟨s, accepted, items⟩ := reading_undoes_printing.2 _ _ printed
    exact ⟨x, printed, s, accepted, items⟩

end Walkthrough
