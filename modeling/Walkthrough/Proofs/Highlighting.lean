import Mathlib.Data.String.Basic
import Walkthrough.Screen.Highlight

/-! Highlighting loses no text. The spans of a line are its characters, cut up in order, and so are
the spans of a value. A line may also be cut by the places of its bytes: a scanner that goes through
the characters by their indices, and takes every comment and every quotation as a slice from one
byte to another, finds the same spans, and none of its slices leaves the line or splits a
character. -/

namespace Walkthrough.Screen

def text (spans : List Span) : List Char :=
  spans.flatMap fun span => span.chars

@[simp]
theorem text_nil : text [] = [] :=
  rfl

@[simp]
theorem text_cons (span : Span) (spans : List Span) :
    text (span :: spans) = span.chars ++ text spans :=
  rfl

@[simp]
theorem text_append (spans spans' : List Span) :
    text (spans ++ spans') = text spans ++ text spans' :=
  List.flatMap_append

@[simp]
theorem text_spanOf (style : List Char → Style) (read : List Char) :
    text (spanOf style read) = read.reverse := by
  unfold spanOf
  cases read with
  | nil => rfl
  | cons c rest => simp

theorem text_lineSpans (language : Language) (word rest : List Char) :
    text (lineSpans language word rest) = word.reverse ++ rest := by
  fun_induction lineSpans language word rest with
  | case1 word => simp
  | case2 word rest => simp
  | case3 word rest quotation ih =>
      have whole : quotation.1 ++ quotation.2 = rest := quotedPart_append rest
      simp [ih, whole]
  | case4 word c rest _ _ isPart ih => simp [ih]
  | case5 word c rest _ _ other colour ih => simp [ih]

theorem text_valueSpans (inQuotes : Bool) (token rest : List Char) :
    text (valueSpans inQuotes token rest) = token.reverse ++ rest := by
  induction rest generalizing inQuotes token with
  | nil => simp [valueSpans]
  | cons c rest ih =>
      unfold valueSpans
      split
      · split <;> simp [ih]
      · split <;> simp [ih]

/-! Cutting by bytes. -/

/-- The characters of a text, each with the byte that it begins at. -/
def charIndices (start : Nat) : List Char → List (Nat × Char)
  | [] => []
  | c :: rest => (start, c) :: charIndices (start + c.utf8Size) rest

/-- The text from one byte of a line to another; none if they are the wrong way round, or one of
them is outside the line or inside a character. -/
def slice? (line : String) (start stop : Nat) : Option (List Char) :=
  if start ≤ stop ∧ (String.Pos.Raw.mk start).isValid line ∧ (String.Pos.Raw.mk stop).isValid line
  then some (String.Pos.Raw.extract line ⟨start⟩ ⟨stop⟩).toList
  else none

/-- How many characters inside a quotation are passed over at once: a backslash and what it stands
in front of, or a single one. -/
def skipWidth (c : Char) : Nat :=
  if c = '\\' then 2 else 1

theorem skipWidth_pos (c : Char) : 0 < skipWidth c := by
  unfold skipWidth
  split <;> decide

/-- The index of the quote that ends a quotation, looked for from an index on. It may come to lie
behind the line. -/
def closingIndex (chars : List (Nat × Char)) (i : Nat) : Nat :=
  match _ : chars[i]? with
  | none => i
  | some (_, c) =>
    if c = '"' then i else closingIndex chars (i + skipWidth c)
termination_by chars.length - i
decreasing_by
  have inside : i < chars.length := by grind
  have := skipWidth_pos ‹Char›
  omega

theorem le_closingIndex (chars : List (Nat × Char)) (i : Nat) : i ≤ closingIndex chars i := by
  fun_induction closingIndex chars i with
  | case1 => exact Nat.le_refl _
  | case2 => exact Nat.le_refl _
  | case3 i _ c _ other ih => omega

/-- The spans of a line, found by index and cut by bytes. -/
def scanLine (language : Language) (line : String) (chars : List (Nat × Char)) (i : Nat)
    (word : List Char) : Option (List Span) :=
  match _ : chars[i]? with
  | none => some (spanOf (wordStyle language · false) word)
  | some (start, c) =>
    if c = '/' ∧ chars[i + 1]?.any (fun next => next.2 = '/') then do
      let comment ← slice? line start line.utf8ByteSize
      return spanOf (fun _ => {}) word ++ [{ chars := comment, style := .ofColour Theme.faint }]
    else if c = '"' then do
      let last := closingIndex chars (i + 1)
      let stop := (chars[last + 1]?.map (·.1)).getD line.utf8ByteSize
      let quotation ← slice? line start (min stop line.utf8ByteSize)
      let rest ← scanLine language line chars (last + 1) []
      return spanOf (fun _ => {}) word
        ++ [{ chars := quotation, style := .ofColour Theme.quoted }] ++ rest
    else if isWordChar c then scanLine language line chars (i + 1) (c :: word)
    else do
      let colour := if isBracket c then Theme.primary else Theme.plain
      let rest ← scanLine language line chars (i + 1) []
      return spanOf (wordStyle language · (c = '(')) word
        ++ [{ chars := [c], style := .ofColour colour }] ++ rest
termination_by chars.length - i
decreasing_by
  all_goals
    have inside : i < chars.length := by grind
    have := le_closingIndex chars (i + 1)
    omega

open String (utf8Len)

section Indices

variable {i : Nat} {before rest : List Char}

theorem length_charIndices (start : Nat) (cs : List Char) :
    (charIndices start cs).length = cs.length := by
  induction cs generalizing start with
  | nil => rfl
  | cons c cs ih => exact congrArg (· + 1) (ih _)

theorem getElem?_charIndices (start : Nat) (before rest : List Char) :
    (charIndices start (before ++ rest))[before.length]? =
      rest.head?.map fun c => (start + utf8Len before, c) := by
  induction before generalizing start with
  | nil => cases rest <;> rfl
  | cons c before ih =>
      change (charIndices (start + c.utf8Size) (before ++ rest))[before.length]? = _
      rw [ih, String.utf8Len_cons, Nat.add_assoc, Nat.add_comm c.utf8Size]

/-- The index is that of the rest of a line, or lies behind a line of which nothing is left. -/
def IsIndex (i : Nat) (before rest : List Char) : Prop :=
  i = before.length ∨ before.length < i ∧ rest = []

theorem IsIndex.here (before rest : List Char) : IsIndex before.length before rest :=
  Or.inl rfl

theorem IsIndex.found (here : IsIndex i before rest) :
    (charIndices 0 (before ++ rest))[i]? = rest.head?.map fun c => (utf8Len before, c) := by
  rcases here with rfl | ⟨behind, rfl⟩
  · rw [getElem?_charIndices, Nat.zero_add]
  · rw [List.append_nil]
    apply List.getElem?_eq_none
    rw [length_charIndices]
    exact Nat.le_of_lt behind

theorem IsIndex.eq_length {c : Char} (here : IsIndex i before (c :: rest)) : i = before.length := by
  rcases here with same | ⟨-, none⟩
  · exact same
  · cases none

theorem IsIndex.next (before : List Char) (c : Char) (rest : List Char) :
    IsIndex (before.length + 1) (before ++ [c]) rest :=
  Or.inl (by simp)

theorem isComment_iff (before : List Char) (c : Char) (rest : List Char) :
    (c = '/' ∧ (charIndices 0 (before ++ c :: rest))[before.length + 1]?.any
      (fun next => next.2 = '/') = true) ↔ c = '/' ∧ ∃ behind, rest = '/' :: behind := by
  have found := (IsIndex.next before c rest).found
  rw [List.append_assoc, List.singleton_append] at found
  rw [found]
  cases rest <;> simp

/-- A quotation ends where it ends for a reader of characters. -/
theorem isIndex_closing (before rest : List Char) :
    IsIndex (closingIndex (charIndices 0 (before ++ rest)) before.length + 1)
      (before ++ (quotedPart rest).1) (quotedPart rest).2 := by
  fun_induction quotedPart rest generalizing before with
  | case1 =>
      rw [closingIndex, (IsIndex.here before []).found]
      exact Or.inr ⟨by simp, rfl⟩
  | case2 rest =>
      rw [closingIndex, (IsIndex.here before _).found]
      exact Or.inl (by simp)
  | case3 c rest part tail split ih =>
      have further := ih (before ++ ['\\', c])
      rw [closingIndex, (IsIndex.here before _).found]
      simpa [split, skipWidth] using further
  | case4 c rest noQuote noEscape part tail split ih =>
      rw [closingIndex, (IsIndex.here before _).found]
      simp only [List.head?_cons, Option.map_some]
      rw [if_neg noQuote]
      cases rest with
      | nil =>
          -- nothing is left, and a backslash at the very end leads further behind the line
          have wide := skipWidth_pos c
          have behind : IsIndex (before.length + skipWidth c) (before ++ [c]) [] := by
            rcases Nat.lt_or_eq_of_le wide with more | one
            · exact Or.inr ⟨by simpa using more, rfl⟩
            · exact Or.inl (by simp [← one])
          have nothing := behind.found
          rw [List.append_nil] at nothing
          rw [closingIndex, nothing]
          cases split
          refine Or.inr ⟨?_, rfl⟩
          change (before ++ [c]).length < before.length + skipWidth c + 1
          rw [List.length_append, List.length_singleton]
          omega
      | cons d rest =>
          have plain : skipWidth c = 1 := if_neg fun slash => noEscape d rest slash rfl
          have further := ih (before ++ [c])
          simpa [split, plain] using further

theorem isValid_behind (before behind : List Char) :
    (String.Pos.Raw.mk (utf8Len before)).isValid (String.ofList (before ++ behind)) = true := by
  rw [String.Pos.Raw.isValid_eq_true_iff, String.Pos.Raw.isValid_iff_exists_append]
  exact ⟨String.ofList before, String.ofList behind, String.ofList_append,
    (String.rawEndPos_ofList before).symm⟩

theorem slice?_middle {line : String} (before middle behind : List Char)
    (split : line.toList = before ++ middle ++ behind) :
    slice? line (utf8Len before) (utf8Len (before ++ middle)) = some middle := by
  obtain rfl : line = String.ofList (before ++ middle ++ behind) := by
    rw [← split, String.ofList_toList]
  have start := isValid_behind before (middle ++ behind)
  have stop := isValid_behind (before ++ middle) behind
  rw [← List.append_assoc] at start
  unfold slice?
  rw [String.utf8Len_append] at stop ⊢
  rw [if_pos ⟨Nat.le_add_right _ _, start, stop⟩, String.extract_of_valid, String.toList_ofList]

/-- A slice cannot end inside a character. -/
example : slice? "é" 0 1 = none := by decide +kernel

theorem utf8ByteSize_eq (line : String) : line.utf8ByteSize = utf8Len line.toList := by
  rw [← String.utf8ByteSize_ofList, String.ofList_toList]

/-- The byte at which a quotation stops: that of the character behind it, or the end of the line. -/
theorem stop_of_isIndex (here : IsIndex i before rest) {line : String}
    (split : line.toList = before ++ rest) :
    min (((charIndices 0 line.toList)[i]?.map (·.1)).getD line.utf8ByteSize)
      line.utf8ByteSize = utf8Len before := by
  rw [utf8ByteSize_eq, split, here.found, String.utf8Len_append]
  cases rest with
  | nil => simp
  | cons c rest => simp

end Indices

/-- The scanner of bytes gives the spans, and none of its slices fails. -/
theorem scanLine_eq (language : Language) {line : String} {word before rest : List Char} {i : Nat}
    (split : line.toList = before ++ rest) (here : IsIndex i before rest) :
    scanLine language line (charIndices 0 line.toList) i word =
      some (lineSpans language word rest) := by
  fun_induction lineSpans language word rest generalizing before i with
  | case1 word =>
      rw [scanLine, split, here.found]
      rfl
  | case2 word rest =>
      obtain rfl := here.eq_length
      have cut := slice?_middle before _ [] (split.trans (List.append_nil _).symm)
      rw [← split, ← utf8ByteSize_eq] at cut
      rw [scanLine, split, here.found]
      refine (if_pos ((isComment_iff before '/' _).mpr ⟨rfl, rest, rfl⟩)).trans ?_
      rw [cut]
      rfl
  | case3 word rest quotation =>
      rename_i ih
      obtain rfl := here.eq_length
      have plain := mt (isComment_iff before '"' rest).mp fun comment => nomatch comment.1
      have whole : line.toList = before ++ ('"' :: quotation.1) ++ quotation.2 := by
        rw [split, List.append_assoc, List.cons_append, quotedPart_append]
      have closed : IsIndex (closingIndex (charIndices 0 line.toList) (before.length + 1) + 1)
          (before ++ '"' :: quotation.1) quotation.2 := by
        simpa [split] using isIndex_closing (before ++ ['"']) rest
      have cut := slice?_middle before _ _ whole
      rw [← stop_of_isIndex closed whole] at cut
      have behind := ih whole closed
      rw [split] at cut behind
      rw [scanLine, split, here.found]
      refine ((if_neg plain).trans (if_pos rfl)).trans ?_
      simp only [cut, behind]
      rfl
  | case4 word c rest noComment noQuote isPart ih =>
      obtain rfl := here.eq_length
      have plain := mt (isComment_iff before c rest).mp
        fun ⟨slash, behind, more⟩ => noComment behind slash more
      have next := ih (by simpa using split) (IsIndex.next before c rest)
      rw [split] at next
      rw [scanLine, split, here.found]
      exact (((if_neg plain).trans (if_neg noQuote)).trans (if_pos isPart)).trans next
  | case5 word c rest noComment noQuote other colour =>
      rename_i ih
      obtain rfl := here.eq_length
      have plain := mt (isComment_iff before c rest).mp
        fun ⟨slash, behind, more⟩ => noComment behind slash more
      have next := ih (by simpa using split) (IsIndex.next before c rest)
      rw [split] at next
      rw [scanLine, split, here.found]
      refine (((if_neg plain).trans (if_neg noQuote)).trans (if_neg other)).trans ?_
      rw [next]
      rfl

/-- Highlighting keeps the text. The spans of a line in either language are the characters of the
line, in their order, and so are the spans of a value's text. A scanner that cuts the line by bytes
finds the same spans: it never slices outside the line or inside a character, also where a quotation
is not closed or ends in a backslash. -/
theorem highlighting_keeps_text :
    (∀ (language : Language) (line : String),
      text (highlightLine language line) = line.toList ∧
      scanLine language line (charIndices 0 line.toList) 0 [] =
        some (highlightLine language line)) ∧
    ∀ value : String, text (highlightValue value) = value.toList := by
  refine ⟨fun language line => ⟨?_, ?_⟩, fun value => ?_⟩
  · exact text_lineSpans language [] line.toList
  · exact scanLine_eq language (List.nil_append _).symm (IsIndex.here [] _)
  · exact text_valueSpans false [] value.toList

end Walkthrough.Screen
