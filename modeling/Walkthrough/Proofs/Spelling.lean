import Walkthrough.Proofs.TokenPlaces

/-! How tokens are written. A scanner takes each token from the characters before it: these are a
line break, a quoted text, a number, a word or the signs of a mark, and at least one of them; the
scanner goes over all of them, and over nothing else. -/

namespace Walkthrough

namespace Text

/-- What may stand between two quotes, and the contents of the text that is so written. -/
inductive Quoted (quote : Char) : List Char → List Char → Prop
  | nothing : Quoted quote [] []
  | plain {c : Char} {body contents : List Char} : c ≠ quote → c ≠ '\n' → c ≠ '\\' →
      Quoted quote body contents → Quoted quote (c :: body) (c :: contents)
  | escaped (c : Char) {body contents : List Char} : Quoted quote body contents →
      Quoted quote ('\\' :: c :: body) (unescape c :: contents)

variable {quote : Char} {p stop : Position} {read cs contents rest : List Char}

theorem quotedBody_closed (closed : quotedBody quote p read cs = .ok (contents, stop, rest)) :
    ∃ body inner, cs = body ++ quote :: rest ∧ Quoted quote body inner ∧
      contents = read.reverse ++ inner ∧ stop = p.afterAll (body ++ [quote]) := by
  fun_induction quotedBody quote p read cs with
  | case1 => cases closed
  | case2 => cases closed
  | case3 p read c rest' ih =>
      obtain ⟨body, inner, split, quoted, rfl, rfl⟩ := ih closed
      refine ⟨'\\' :: c :: body, unescape c :: inner, ?_, .escaped c quoted, ?_, rfl⟩
      · rw [split, List.cons_append, List.cons_append]
      · simp
  | case4 p read rest' noEscape =>
      cases closed
      exact ⟨[], [], rfl, .nothing, by simp, rfl⟩
  | case5 => cases closed
  | case6 p read c rest' single escape noQuote noFeed ih =>
      obtain ⟨body, inner, split, quoted, rfl, rfl⟩ := ih closed
      have noSlash : c ≠ '\\' := by
        rintro rfl
        cases rest' with
        | nil => exact single rfl rfl
        | cons d more => exact escape d more rfl rfl
      refine ⟨c :: body, c :: inner, ?_, .plain noQuote noFeed noSlash quoted, ?_, rfl⟩
      · rw [split, List.cons_append]
      · simp

end Text

namespace JikiScript

/-- The characters write the token. Equality may be written with three signs. -/
inductive IsLexeme : Token → List Char → Prop
  | newline : IsLexeme .newline ['\n']
  | text {body contents : List Char} : Text.Quoted '"' body contents →
      IsLexeme (.text (String.ofList contents)) ('"' :: body ++ ['"'])
  | number {c : Char} {cs : List Char} {x : Float} : Number.isDigit c = true →
      (∀ d ∈ cs, isNumberPart d = true) → checkNumber (c :: cs) = .ok x →
      IsLexeme (.number x) (c :: cs)
  | word {cs : List Char} {k : Keyword} : String.ofList cs = k.spelling → IsLexeme (.word k) cs
  | name {c : Char} {cs : List Char} : isNameStart c = true → (∀ d ∈ cs, isNamePart d = true) →
      Keyword.ofSpelling? (String.ofList (c :: cs)) = none →
      IsLexeme (.name (String.ofList (c :: cs))) (c :: cs)
  | mark {cs : List Char} {m : Mark} : String.ofList cs = m.spelling → IsLexeme (.mark m) cs
  | threeSigns : IsLexeme (.mark .eqEq) ['=', '=', '=']

variable {c : Char} {cs rest left lexeme : List Char} {p stop : Position} {token : Token}

theorem IsLexeme.ne_nil (h : IsLexeme token lexeme) : lexeme ≠ [] := by
  cases h with
  | @word _ k spelled =>
      rintro rfl
      cases k <;> exact absurd spelled (by decide)
  | @mark _ m spelled =>
      rintro rfl
      cases m <;> exact absurd spelled (by decide)
  | newline | text | number | name | threeSigns => exact List.cons_ne_nil _ _

theorem Keyword.spelling_of_ofSpelling? {word : String} {k : Keyword}
    (found : Keyword.ofSpelling? word = some k) : k.spelling = word := by
  simpa using List.find?_some found

theorem isLexeme_wordToken (starts : isNameStart c = true) (parts : ∀ d ∈ cs, isNamePart d = true) :
    IsLexeme (wordToken (String.ofList (c :: cs))) (c :: cs) := by
  unfold wordToken
  cases found : Keyword.ofSpelling? (String.ofList (c :: cs)) with
  | some k => exact .word (Keyword.spelling_of_ofSpelling? found).symm
  | none => exact .name starts parts found

theorem isLexeme_mark {m : Mark} (read : mark? cs = some (m, lexeme, rest)) :
    IsLexeme (.mark m) lexeme := by
  unfold mark? at read
  split at read <;> cases read
  case h_1 => exact .threeSigns
  all_goals
    apply IsLexeme.mark
    decide

/-- The scanner takes a token from the characters that write it. -/
theorem nextToken_isLexeme (read : nextToken p c rest = .ok (token, stop, left)) :
    ∃ lexeme, c :: rest = lexeme ++ left ∧ stop = p.afterAll lexeme ∧ IsLexeme token lexeme := by
  unfold nextToken at read
  by_cases feed : c = '\n'
  · rw [if_pos feed] at read
    cases read
    exact ⟨[c], rfl, rfl, feed ▸ .newline⟩
  rw [if_neg feed] at read
  by_cases quote : c = '"'
  · rw [if_pos quote] at read
    split at read
    · next contents stop' rest' closed =>
        cases read
        obtain ⟨body, inner, rfl, quoted, rfl, rfl⟩ := Text.quotedBody_closed closed
        refine ⟨'"' :: body ++ ['"'], by simp [quote], ?_, .text quoted⟩
        rw [quote]
        rfl
    · cases read
  rw [if_neg quote] at read
  by_cases digit : Number.isDigit c = true
  · rw [if_pos digit] at read
    dsimp only at read
    cases checked : checkNumber (c :: rest.takeWhile isNumberPart) with
    | error mistake =>
        rw [checked] at read
        cases read
    | ok x =>
        rw [checked] at read
        cases read
        refine ⟨c :: rest.takeWhile isNumberPart, by simp, rfl, .number digit ?_ checked⟩
        exact fun d => List.mem_takeWhile_imp
  rw [if_neg digit] at read
  by_cases starts : isNameStart c = true
  · rw [if_pos starts] at read
    cases read
    refine ⟨c :: rest.takeWhile isNamePart, by simp, rfl, isLexeme_wordToken starts ?_⟩
    exact fun d => List.mem_takeWhile_imp
  rw [if_neg starts] at read
  split at read
  · next spelled =>
      cases read
      exact ⟨_, (mark?_spelled spelled).1, rfl, isLexeme_mark spelled⟩
  · cases read

end JikiScript

namespace JavaScript

/-- The part of a number behind its whole digits: nothing, or a point and digits. -/
inductive IsFraction : List Char → Prop
  | nothing : IsFraction []
  | digits {ds : List Char} : ds ≠ [] → (∀ d ∈ ds, Number.isDigit d = true) →
      IsFraction ('.' :: ds)

/-- The characters write the token. A text may stand in quotes of either kind. -/
inductive IsLexeme : Token → List Char → Prop
  | text {quote : Char} {body contents : List Char} : quote = '"' ∨ quote = '\'' →
      Text.Quoted quote body contents →
      IsLexeme (.text (String.ofList contents)) (quote :: body ++ [quote])
  | number {ds fraction : List Char} {x : Float} : ds ≠ [] →
      (∀ d ∈ ds, Number.isDigit d = true) → IsFraction fraction →
      Number.read? (ds ++ fraction) = some x → IsLexeme (.number x) (ds ++ fraction)
  | word {cs : List Char} {k : Keyword} : String.ofList cs = k.spelling → IsLexeme (.word k) cs
  | name {c : Char} {cs : List Char} : isNameStart c = true → (∀ d ∈ cs, isNamePart d = true) →
      Keyword.ofSpelling? (String.ofList (c :: cs)) = none →
      IsLexeme (.name (String.ofList (c :: cs))) (c :: cs)
  | mark {cs : List Char} {m : Mark} : String.ofList cs = m.spelling → IsLexeme (.mark m) cs

variable {c : Char} {cs rest left lexeme : List Char} {p stop : Position} {token : Token}

theorem IsLexeme.ne_nil (h : IsLexeme token lexeme) : lexeme ≠ [] := by
  cases h with
  | number nonempty => exact List.append_ne_nil_of_left_ne_nil nonempty _
  | @word _ k spelled =>
      rintro rfl
      cases k <;> exact absurd spelled (by decide)
  | @mark _ m spelled =>
      rintro rfl
      cases m <;> exact absurd spelled (by decide)
  | text | name => exact List.cons_ne_nil _ _

theorem Keyword.spelling_of_ofSpelling? {word : String} {k : Keyword}
    (found : Keyword.ofSpelling? word = some k) : k.spelling = word := by
  simpa using List.find?_some found

theorem isLexeme_wordToken (starts : isNameStart c = true) (parts : ∀ d ∈ cs, isNamePart d = true) :
    IsLexeme (wordToken (String.ofList (c :: cs))) (c :: cs) := by
  unfold wordToken
  cases found : Keyword.ofSpelling? (String.ofList (c :: cs)) with
  | some k => exact .word (Keyword.spelling_of_ofSpelling? found).symm
  | none => exact .name starts parts found

theorem isLexeme_mark {m : Mark} (read : mark? cs = some (m, lexeme, rest)) :
    IsLexeme (.mark m) lexeme := by
  unfold mark? at read
  split at read <;> cases read
  all_goals
    apply IsLexeme.mark
    decide

theorem isFraction_fraction (cs : List Char) : IsFraction (fraction cs) := by
  unfold fraction
  split
  · next rest =>
      dsimp only
      split
      · exact .nothing
      · next nonempty =>
          apply IsFraction.digits
          · simpa using nonempty
          · exact fun d => List.mem_takeWhile_imp
  · exact .nothing

/-- The scanner takes a token from the characters that write it. -/
theorem nextToken_isLexeme (read : nextToken p c rest = .ok (token, stop, left)) :
    ∃ lexeme, c :: rest = lexeme ++ left ∧ stop = p.afterAll lexeme ∧ IsLexeme token lexeme := by
  unfold nextToken at read
  by_cases quote : c = '"' ∨ c = '\''
  · rw [if_pos (by simpa using quote)] at read
    split at read
    · next contents stop' rest' closed =>
        cases read
        obtain ⟨body, inner, rfl, quoted, rfl, rfl⟩ := Text.quotedBody_closed closed
        exact ⟨c :: body ++ [c], by simp, rfl, .text quote quoted⟩
    · cases read
  rw [if_neg (by simpa using quote)] at read
  by_cases digit : Number.isDigit c = true
  · rw [if_pos digit] at read
    dsimp only at read
    split at read
    · next x found =>
        cases read
        refine ⟨numberLexeme (c :: rest), (numberLexeme_append _).symm, rfl, ?_⟩
        apply IsLexeme.number _ _ (isFraction_fraction _) found
        · simp [digit]
        · exact fun d => List.mem_takeWhile_imp
    · cases read
  rw [if_neg digit] at read
  by_cases starts : isNameStart c = true
  · rw [if_pos starts] at read
    cases read
    refine ⟨c :: rest.takeWhile isNamePart, by simp, rfl, isLexeme_wordToken starts ?_⟩
    exact fun d => List.mem_takeWhile_imp
  rw [if_neg starts] at read
  split at read
  · next spelled =>
      cases read
      exact ⟨_, mark?_spelled spelled, rfl, isLexeme_mark spelled⟩
  · cases read

end JavaScript
end Walkthrough
