import Walkthrough.Proofs.Printing
import Walkthrough.Proofs.Tiling

/-! Suggested numbers. Where a number is refused for what is wrong with it, the message suggests
another one, which is the number with that one thing mended. The suggestion is a number itself if
nothing else is wrong with it, and only then: a second mistake stays, and a number of zeros loses
all of them. -/

namespace Walkthrough.JikiScript

open Number

variable {c : Char} {cs rest : List Char} {p stop : Position}

/-- A round of the scanner that fails: it cannot read the token at which it comes to stand, or it
can, and a later round fails. -/
inductive FailedRound (bound : Nat) (before : List Char) (m : Located Mistake) : List Char → Prop
  | here {gap rest : List Char} {c : Char} : m.position = .behind (before ++ gap) →
      nextToken m.position c rest = .error m.item → FailedRound bound before m (gap ++ c :: rest)
  | later {gap lexeme left : List Char} (fresh : Bool) :
      scan bound fresh (.behind (before ++ gap ++ lexeme)) left = .error m →
      FailedRound bound before m (gap ++ lexeme ++ left)

theorem scan_fails {bound : Nat} {fresh : Bool} {before : List Char} {m : Located Mistake}
    (read : scan (bound + 1) fresh (.behind before) cs = .error m) :
    FailedRound bound before m cs := by
  obtain ⟨gap, split, moved, -⟩ := skipGaps_spacing none false (.behind before) cs
  rw [Position.afterAll_behind] at moved
  unfold scan at read
  dsimp only at read
  rw [moved] at read
  generalize (skipGaps false (.behind before) cs).2 = ahead at read split
  subst split
  cases ahead with
  | nil => cases read
  | cons c rest =>
      dsimp only at read
      cases taken : nextToken (.behind (before ++ gap)) c rest with
      | error mistake =>
          rw [taken] at read
          cases read
          exact .here rfl taken
      | ok result =>
          obtain ⟨token, next, left⟩ := result
          rw [taken] at read
          obtain ⟨lexeme, here, rfl, -⟩ := nextToken_isLexeme taken
          rw [Position.afterAll_behind] at read
          rw [here, ← List.append_assoc]
          dsimp only at read
          split at read
          · exact .later true read
          · apply FailedRound.later (token = .newline)
            cases scanned : scan bound (token = .newline)
                (.behind (before ++ gap ++ lexeme)) left with
            | error mistake =>
                rw [scanned] at read
                exact read
            | ok later =>
                rw [scanned] at read
                cases read

theorem scan_refuses {bound : Nat} {fresh : Bool} {before : List Char} {m : Located Mistake}
    (read : scan bound fresh (.behind before) cs = .error m) :
    ∃ used c rest, cs = used ++ c :: rest ∧ m.position = .behind (before ++ used) ∧
      nextToken m.position c rest = .error m.item := by
  induction bound generalizing fresh before cs with
  | zero => cases read
  | succ bound ih =>
      cases scan_fails read with
      | @here gap rest c place fails => exact ⟨gap, c, rest, rfl, place, fails⟩
      | @later gap lexeme left fresh refused =>
          obtain ⟨used, c, rest, rfl, place, fails⟩ := ih refused
          refine ⟨gap ++ lexeme ++ used, c, rest, by simp, ?_, fails⟩
          rw [place]
          simp

theorem tokenize_refuses {source : String} {m : Located Mistake}
    (read : tokenize source = .error m) :
    ∃ before c rest, source.toList = before ++ c :: rest ∧ m.position = .behind before ∧
      nextToken m.position c rest = .error m.item := by
  unfold tokenize at read
  dsimp only at read
  cases scanned : scan (source.toList.length + 1) true Position.start source.toList with
  | error mistake =>
      rw [scanned] at read
      cases read
      exact @scan_refuses _ _ _ [] _ scanned
  | ok result =>
      rw [scanned] at read
      cases read

def Mistake.suggestion? : Mistake → Option String
  | .numberContainsLetters suggestion => some suggestion
  | .numberWithTwoPoints suggestion => some suggestion
  | .numberEndsWithPoint suggestion => some suggestion
  | .numberStartsWithZero suggestion => some suggestion
  | _ => none

theorem checkNumber_of_suggestion {m : Mistake} {suggestion : String}
    (refused : nextToken p c rest = .error m) (offered : m.suggestion? = some suggestion) :
    isDigit c = true ∧ checkNumber (c :: rest.takeWhile isNumberPart) = .error m := by
  unfold nextToken at refused
  split at refused
  · cases refused
  split at refused
  · split at refused
    · cases refused
    · cases refused
      cases offered
  split at refused
  · next digit =>
      refine ⟨digit, ?_⟩
      dsimp only at refused
      cases checked : checkNumber (c :: rest.takeWhile isNumberPart) with
      | error mistake =>
          rw [checked] at refused
          cases refused
          rfl
      | ok x =>
          rw [checked] at refused
          cases refused
  split at refused
  · cases refused
  split at refused
  · cases refused
  · cases refused
    cases offered

/-- The text is a number to the scanner, and nothing else. -/
def IsAccepted (text : String) : Prop :=
  ∃ s x, tokenize text = .ok s ∧ s.ahead.map (·.item) = [.number x, .newline]

theorem tokenize_of_refused (stays : skipGaps false .start (c :: rest) = (.start, c :: rest))
    {m : Mistake} (refused : nextToken .start c rest = .error m) :
    tokenize (String.ofList (c :: rest)) = .error ⟨m, .start⟩ := by
  unfold tokenize scan
  rw [String.toList_ofList]
  simp [stays, refused, bind, Except.bind]

theorem nextToken_number_error (digit : isDigit c = true)
    (parts : ∀ d ∈ rest, isNumberPart d = true) {m : Mistake}
    (checked : checkNumber (c :: rest) = .error m) : nextToken p c rest = .error m := by
  have feed : c ≠ '\n' := ne_of_isDigit digit rfl
  have quote : c ≠ '"' := ne_of_isDigit digit rfl
  unfold nextToken
  rw [if_neg feed, if_neg quote, if_pos digit, List.takeWhile_eq_self_iff.mpr parts]
  dsimp only
  rw [checked]
  rfl

/-- Among digits and points, the decimals without an idle zero are accepted. -/
theorem isAccepted_iff (bare : IsBare cs) :
    IsAccepted (String.ofList cs) ↔ IsDecimal cs ∧ ¬ HasIdleZero cs := by
  constructor
  · rintro ⟨s, x, accepted, items⟩
    cases cs with
    | nil =>
        cases accepted
        cases items
    | cons c rest =>
        rcases bare c List.mem_cons_self with digit | rfl
        · have run := isNumberRun_of_isBare bare ⟨c, rfl, digit⟩
          cases checked : checkNumber (c :: rest) with
          | ok y =>
              obtain ⟨decimal, tidy, -⟩ := (checkNumber_eq_ok run).mp checked
              exact ⟨decimal, tidy⟩
          | error m =>
              have part : isNamePart c = true := by simp [isNamePart, digit]
              have refused := nextToken_number_error (p := .start) digit
                (fun d member => run.parts d (List.mem_cons_of_mem c member)) checked
              rw [tokenize_of_refused (skipGaps_namePart part) refused] at accepted
              cases accepted
        · rw [tokenize_of_refused (m := .unknownCharacter '.') rfl rfl] at accepted
          cases accepted
  · rintro ⟨decimal, tidy⟩
    obtain ⟨x, read⟩ := decimal.read?
    have writes : IsLexeme (.number x) cs := (Printed.number decimal tidy read).isLexeme
    obtain ⟨s, accepted, items⟩ := tokenize_spaced (.cons ⟨writes, by simp⟩ .nil)
    rw [spaced_cons] at accepted
    refine ⟨s, x, ?_, items⟩
    simpa [trail] using accepted

/-- Nothing else is wrong with a number than what it is refused for: without its letters it is a
number; or there is a digit behind its first point, and no idle zero in front; or there is no idle
zero in front of the point at its end; or a digit other than zero stands in front of its point. -/
def Mistake.Mends : Mistake → List Char → Prop
  | .numberContainsLetters _, cs =>
    let kept := cs.filter fun c => isDigit c || c == '.'
    kept.count '.' ≤ 1 ∧ kept.getLast? ≠ some '.' ∧ ¬ HasIdleZero kept
  | .numberWithTwoPoints _, cs =>
    (∃ d ∈ cs.dropWhile (· != '.'), isDigit d = true) ∧ ¬ HasIdleZero cs
  | .numberEndsWithPoint _, cs => ¬ HasIdleZero cs
  | .numberStartsWithZero _, cs => ∃ d ∈ cs.takeWhile (· != '.'), d ≠ '0'
  | _, _ => False

theorem isAccepted_withoutLetters (run : IsNumberRun cs) {kept : List Char}
    (h : kept = cs.filter fun c => isDigit c || c == '.') :
    IsAccepted (String.ofList kept) ↔
      kept.count '.' ≤ 1 ∧ kept.getLast? ≠ some '.' ∧ ¬ HasIdleZero kept := by
  have bare : IsBare kept := by
    intro d member
    rw [h, List.mem_filter, Bool.or_eq_true, beq_iff_eq] at member
    exact member.2
  have begins : ∃ d ∈ kept.head?, isDigit d = true := by
    obtain ⟨d, first, digit⟩ := run.begins
    obtain ⟨rest, rfl⟩ := List.head?_eq_some_iff.mp first
    exact ⟨d, by simp [h, digit], digit⟩
  rw [isAccepted_iff bare, isDecimal_iff bare begins, and_assoc]

theorem isAccepted_withOnePoint (run : IsNumberRun cs) (bare : IsBare cs) (point : '.' ∈ cs) :
    IsAccepted (String.ofList (cs.takeWhile (· != '.') ++
        '.' :: (cs.dropWhile (· != '.')).filter (· != '.'))) ↔
      (∃ d ∈ cs.dropWhile (· != '.'), isDigit d = true) ∧ ¬ HasIdleZero cs := by
  obtain ⟨ds, fs, rfl, digits, others⟩ := bare.parts point
  have nonempty : ds ≠ [] := run.whole_ne_nil
  have kept (d : Char) := others.mem_withoutPoints d
  have more (d) (member : d ∈ fs.filter (· != '.')) : isDigit d = true := ((kept d).mp member).2
  have mended : IsBare (ds ++ '.' :: fs.filter (· != '.')) := by
    intro d member
    simp only [List.mem_append, List.mem_cons] at member
    rcases member with front | point | behind
    · exact .inl (digits d front)
    · exact .inr point
    · exact .inl (more d behind)
  have filtered : ('.' :: fs).filter (· != '.') = fs.filter (· != '.') := rfl
  rw [takeWhile_point digits, dropWhile_point digits, filtered, isAccepted_iff mended,
    hasIdleZero_pointed, hasIdleZero_pointed]
  apply and_congr_left'
  constructor
  · intro decimal
    -- without a digit behind it the point would come last
    by_contra none
    have empty : fs.filter (· != '.') = [] := by
      rw [List.eq_nil_iff_forall_not_mem]
      intro d member
      obtain ⟨there, digit⟩ := (kept d).mp member
      exact none ⟨d, List.mem_cons_of_mem _ there, digit⟩
    apply decimal.points.2
    rw [empty, List.getLast?_concat]
  · rintro ⟨d, member, digit⟩
    have behind : d ∈ fs := (List.mem_cons.mp member).resolve_left (ne_of_isDigit digit rfl)
    apply IsDecimal.pointed nonempty digits _ more
    exact List.ne_nil_of_mem ((kept d).mpr ⟨behind, digit⟩)

theorem isAccepted_withoutLastPoint (run : IsNumberRun cs) (bare : IsBare cs)
    (once : cs.count '.' ≤ 1) (last : cs.getLast? = some '.') :
    IsAccepted (String.ofList cs.dropLast) ↔ ¬ HasIdleZero cs := by
  obtain ⟨ds, rfl⟩ := List.getLast?_eq_some_iff.mp last
  have free : '.' ∉ ds := by
    rw [← List.count_eq_zero]
    simpa using once
  have digits := bare.digits (fun d => List.mem_append_left _) free
  have nonempty : ds ≠ [] := run.whole_ne_nil
  rw [List.dropLast_concat, isAccepted_iff (fun d member => .inl (digits d member)),
    hasIdleZero_pointed]
  exact and_iff_right (.whole nonempty digits)

theorem isAccepted_withoutZeros (decimal : IsDecimal cs) :
    IsAccepted (String.ofList (cs.dropWhile (· == '0'))) ↔
      ∃ d ∈ cs.takeWhile (· != '.'), d ≠ '0' := by
  have zeros (d) (member : d ∈ cs.takeWhile (· == '0')) : d = '0' := by
    simpa using List.mem_takeWhile_imp member
  have whole (d) (member : d ∈ cs.takeWhile (· == '0')) : (d != '.') = true := by
    rw [zeros d member]
    rfl
  have split := List.takeWhile_append_dropWhile (p := (· == '0')) (l := cs)
  have nonzero := List.head?_dropWhile_not (· == '0') cs
  generalize cs.takeWhile (· == '0') = front at zeros whole split
  generalize cs.dropWhile (· == '0') = behind at split nonzero ⊢
  subst split
  rw [List.takeWhile_append_of_pos whole]
  have bare : IsBare behind := fun d member => decimal.isBare d (List.mem_append_right _ member)
  rw [isAccepted_iff bare]
  -- what comes first behind the zeros decides: nothing, another digit, or the point
  cases behind with
  | nil =>
      constructor
      · exact fun accepted => absurd rfl accepted.1.ne_nil
      · rintro ⟨d, member, other⟩
        rw [List.takeWhile_nil, List.append_nil] at member
        exact absurd (zeros d member) other
  | cons d rest =>
      rcases bare d List.mem_cons_self with digit | rfl
      · have other : d ≠ '0' := by simpa using nonzero
        have point : d ≠ '.' := ne_of_isDigit digit rfl
        apply iff_of_true ⟨decimal.behind digit, not_hasIdleZero_of_ne other⟩
        refine ⟨d, List.mem_append_right _ ?_, other⟩
        simp [point]
      · constructor
        · intro accepted
          exact absurd (accepted.1.head_isDigit '.' rfl) (by decide)
        · rintro ⟨d, member, other⟩
          have within : d ∈ front := by simpa using member
          exact absurd (zeros d within) other

/-- What is suggested for a number is accepted exactly if nothing else is wrong with it. -/
theorem isAccepted_suggestion (run : IsNumberRun cs) {m : Mistake} {suggestion : String}
    (checked : Checked cs (.error m)) (offered : m.suggestion? = some suggestion) :
    IsAccepted suggestion ↔ m.Mends cs := by
  cases checked with
  | letters =>
      cases offered
      exact isAccepted_withoutLetters run rfl
  | points bare twice =>
      cases offered
      exact isAccepted_withOnePoint run bare (List.count_pos_iff.mp (Nat.zero_lt_of_lt twice))
  | lastPoint bare once last =>
      cases offered
      exact isAccepted_withoutLastPoint run bare once last
  | idleZero decimal =>
      cases offered
      exact isAccepted_withoutZeros decimal

/-- Where the scanner suggests a number, it stands at a run of digits, letters, underscores and
points, and refuses it for what the checks find wrong with it. What it suggests is accepted as a
number, and as nothing else, exactly if nothing else is wrong with that run. -/
theorem suggestions_mend_one_mistake {source suggestion : String} {m : Located Mistake}
    (refused : tokenize source = .error m) (offered : m.item.suggestion? = some suggestion) :
    ∃ before number behind, source.toList = before ++ number ++ behind ∧
      m.position = .behind before ∧ IsNumberRun number ∧
      (∀ d ∈ behind.head?, isNumberPart d = false) ∧ Checked number (.error m.item) ∧
      (IsAccepted suggestion ↔ m.item.Mends number) := by
  obtain ⟨before, c, rest, split, place, fails⟩ := tokenize_refuses refused
  obtain ⟨digit, checked⟩ := checkNumber_of_suggestion fails offered
  have run : IsNumberRun (c :: rest.takeWhile isNumberPart) := by
    refine ⟨⟨c, rfl, digit⟩, ?_⟩
    intro d member
    rcases List.mem_cons.mp member with rfl | later
    · simp [isNumberPart, isNamePart, digit]
    · exact List.mem_takeWhile_imp later
  have outcome := checkNumber_checked run
  rw [checked] at outcome
  refine ⟨before, c :: rest.takeWhile isNumberPart, rest.dropWhile isNumberPart, ?_, place, run, ?_,
    outcome, isAccepted_suggestion run outcome offered⟩
  · simp [split]
  · intro d first
    have stops := List.head?_dropWhile_not isNumberPart rest
    rw [Option.mem_def.mp first] at stops
    simpa using stops

/-- Letters and underscores are all that is wrong here. -/
theorem letters_are_mended :
    tokenize "log 1_000.5x" = .error ⟨.numberContainsLetters "1000.5", ⟨1, 5⟩⟩ ∧
      IsAccepted "1000.5" := by
  have refused : tokenize "log 1_000.5x" =
      .error ⟨.numberContainsLetters "1000.5", ⟨1, 5⟩⟩ := by rfl
  obtain ⟨before, number, behind, -, -, -, -, checked, accepted⟩ :=
    suggestions_mend_one_mistake refused rfl
  have kept : (number.filter fun c => isDigit c || c == '.') = "1000.5".toList := by
    have suggested {s : String} (h : Checked number (.error (.numberContainsLetters s))) :
        s = String.ofList (number.filter fun c => isDigit c || c == '.') := by
      cases h
      rfl
    rw [suggested checked, String.toList_ofList]
  refine ⟨refused, accepted.mpr ?_⟩
  unfold Mistake.Mends
  dsimp only
  rw [kept]
  refine ⟨by decide, by decide, ?_⟩
  rintro ⟨d, rest, split, -⟩
  cases split

/-- Of a number with idle zeros no zero is left, not even the one in front of the point; and without
it the number is none. -/
theorem zeros_are_mended_away :
    tokenize "00.5" = .error ⟨.numberStartsWithZero ".5", ⟨1, 1⟩⟩ ∧ ¬ IsAccepted ".5" := by
  constructor
  · rfl
  · rintro ⟨s, x, accepted, -⟩
    cases accepted

end Walkthrough.JikiScript
