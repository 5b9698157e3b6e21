import Mathlib.Data.List.Basic
import Mathlib.Data.List.TakeWhile
import Walkthrough.Proofs.Spelling

/-! Numerals. A decimal is digits, and perhaps a point with more digits behind it; every decimal is
read as a number. JavaScript takes all of them, and JikiScript those that have no idle zero in
front: its checks of a number refuse exactly the others. -/

namespace Walkthrough

namespace Number

/-- Digits, or digits with a point and more digits behind them. -/
inductive IsDecimal : List Char → Prop
  | whole {ds : List Char} : ds ≠ [] → (∀ d ∈ ds, isDigit d = true) → IsDecimal ds
  | pointed {ds fs : List Char} : ds ≠ [] → (∀ d ∈ ds, isDigit d = true) → fs ≠ [] →
      (∀ d ∈ fs, isDigit d = true) → IsDecimal (ds ++ '.' :: fs)

/-- A zero in front that another digit follows. -/
def HasIdleZero (cs : List Char) : Prop :=
  ∃ d rest, cs = '0' :: d :: rest ∧ d ≠ '.'

/-- There is nothing but digits and points. -/
def IsBare (cs : List Char) : Prop :=
  ∀ d ∈ cs, isDigit d = true ∨ d = '.'

variable {c : Char} {cs ds fs : List Char}

theorem ne_of_isDigit (digit : isDigit c = true) {d : Char} (other : isDigit d = false) :
    c ≠ d := by
  rintro rfl
  rw [digit] at other
  cases other

theorem not_point_mem (digits : ∀ d ∈ ds, isDigit d = true) : '.' ∉ ds := by
  intro member
  exact absurd (digits '.' member) (by decide)

theorem toLower_of_isDigit (digit : isDigit c = true) : c.toLower = c := by
  have bounds := Text.bounds_of_isDigit digit
  unfold Char.toLower
  apply dif_neg
  rintro ⟨low, -⟩
  have upper : 65 ≤ c.toNat := UInt32.le_iff_toNat_le.mp low
  omega

theorem takeSign_of_isDigit (digit : isDigit c = true) : takeSign (c :: cs) = (false, c :: cs) := by
  have minus : c ≠ '-' := ne_of_isDigit digit rfl
  have plus : c ≠ '+' := ne_of_isDigit digit rfl
  simp [takeSign, minus, plus]

theorem named?_of_isDigit (digit : isDigit c = true) : named? (c :: cs) = none := by
  have differs (word : String) (d : Char) (begins : word.toList.head? = some d)
      (letter : isDigit d = false) : String.ofList ((c :: cs).map Char.toLower) ≠ word := by
    rintro rfl
    rw [String.toList_ofList, List.map_cons, toLower_of_isDigit digit] at begins
    exact ne_of_isDigit digit letter (Option.some.inj begins)
  unfold named?
  split
  · next spelled => exact absurd spelled (differs _ 'i' rfl rfl)
  · next spelled => exact absurd spelled (differs _ 'i' rfl rfl)
  · next spelled => exact absurd spelled (differs _ 'n' rfl rfl)
  · rfl

theorem hasIdleZero_pointed : HasIdleZero (ds ++ '.' :: fs) ↔ HasIdleZero ds := by
  unfold HasIdleZero
  constructor
  · rintro ⟨d, rest, split, other⟩
    match ds with
    | [] => cases split
    | [c] =>
        cases split
        exact absurd rfl other
    | c :: e :: more =>
        cases split
        exact ⟨d, more, rfl, other⟩
  · rintro ⟨d, rest, rfl, other⟩
    exact ⟨d, rest ++ '.' :: fs, rfl, other⟩

theorem not_hasIdleZero_of_ne (other : c ≠ '0') : ¬ HasIdleZero (c :: cs) := by
  rintro ⟨d, rest, same, -⟩
  cases same
  exact other rfl

theorem IsDecimal.ne_nil (h : IsDecimal cs) : cs ≠ [] := by
  cases h with
  | whole nonempty => exact nonempty
  | pointed nonempty => exact List.append_ne_nil_of_left_ne_nil nonempty _

theorem IsDecimal.isBare (h : IsDecimal cs) : IsBare cs := by
  intro d member
  cases h with
  | whole _ digits => exact Or.inl (digits d member)
  | pointed _ digits _ more =>
      rcases List.mem_append.mp member with front | behind
      · exact Or.inl (digits d front)
      · rcases List.mem_cons.mp behind with point | behind
        · exact Or.inr point
        · exact Or.inl (more d behind)

theorem IsDecimal.head_isDigit (h : IsDecimal cs) : ∀ d ∈ cs.head?, isDigit d = true := by
  intro d first
  cases h with
  | whole _ digits => exact digits d (List.mem_of_mem_head? first)
  | pointed nonempty digits =>
      rw [List.head?_append_of_ne_nil _ nonempty] at first
      exact digits d (List.mem_of_mem_head? first)

theorem IsDecimal.begins (h : IsDecimal cs) : ∃ d ∈ cs.head?, isDigit d = true := by
  obtain ⟨c, rest, rfl⟩ := List.exists_cons_of_ne_nil h.ne_nil
  exact ⟨c, rfl, h.head_isDigit c rfl⟩

theorem IsBare.digits (bare : IsBare cs) (within : ∀ d ∈ ds, d ∈ cs) (free : '.' ∉ ds) :
    ∀ d ∈ ds, isDigit d = true := by
  intro d member
  apply (bare d (within d member)).resolve_right
  rintro rfl
  exact free member

theorem IsBare.parts (bare : IsBare cs) (point : '.' ∈ cs) :
    ∃ ds fs, cs = ds ++ '.' :: fs ∧ (∀ d ∈ ds, isDigit d = true) ∧ IsBare fs := by
  obtain ⟨ds, fs, rfl, free⟩ := List.eq_append_cons_of_mem point
  refine ⟨ds, fs, rfl, bare.digits (fun d => List.mem_append_left _) free, ?_⟩
  intro d member
  apply bare d
  simp [member]

theorem takeWhile_point (digits : ∀ d ∈ ds, isDigit d = true) :
    (ds ++ '.' :: fs).takeWhile (· != '.') = ds := by
  have plain (d) (member : d ∈ ds) : (d != '.') = true :=
    bne_iff_ne.mpr (ne_of_isDigit (digits d member) rfl)
  rw [List.takeWhile_append_of_pos plain]
  simp

theorem dropWhile_point (digits : ∀ d ∈ ds, isDigit d = true) :
    (ds ++ '.' :: fs).dropWhile (· != '.') = '.' :: fs := by
  have plain (d) (member : d ∈ ds) : (d != '.') = true :=
    bne_iff_ne.mpr (ne_of_isDigit (digits d member) rfl)
  rw [List.dropWhile_append_of_pos plain]
  simp

theorem IsBare.mem_withoutPoints (bare : IsBare cs) (d : Char) :
    d ∈ cs.filter (· != '.') ↔ d ∈ cs ∧ isDigit d = true := by
  rw [List.mem_filter, bne_iff_ne]
  apply and_congr_right
  intro member
  constructor
  · exact (bare d member).resolve_right
  · exact fun digit => ne_of_isDigit digit rfl

/-- Digits and points are a decimal if a digit comes first, there is at most one point, and it does
not come last. -/
theorem isDecimal_iff (bare : IsBare cs) (begins : ∃ d ∈ cs.head?, isDigit d = true) :
    IsDecimal cs ↔ cs.count '.' ≤ 1 ∧ cs.getLast? ≠ some '.' := by
  constructor
  · intro h
    cases h with
    | whole _ digits =>
        rw [List.count_eq_zero.mpr (not_point_mem digits)]
        exact ⟨Nat.zero_le 1, fun last => not_point_mem digits (List.mem_of_getLast? last)⟩
    | @pointed ds fs _ digits nonempty more =>
        have before := List.count_eq_zero.mpr (not_point_mem digits)
        have behind := List.count_eq_zero.mpr (not_point_mem more)
        constructor
        · simp [before, behind]
        · intro last
          rw [← List.singleton_append, ← List.append_assoc,
            List.getLast?_append_of_ne_nil _ nonempty] at last
          exact not_point_mem more (List.mem_of_getLast? last)
  · rintro ⟨once, last⟩
    obtain ⟨first, head, digit⟩ := begins
    by_cases point : '.' ∈ cs
    · obtain ⟨ds, fs, rfl, digits, others⟩ := bare.parts point
      have before := List.count_eq_zero.mpr (not_point_mem digits)
      have free : '.' ∉ fs := by
        rw [← List.count_eq_zero]
        simpa [before] using once
      apply IsDecimal.pointed _ digits _ (others.digits (fun _ => id) free)
      · rintro rfl
        cases head
        exact absurd digit (by decide)
      · rintro rfl
        simp at last
    · apply IsDecimal.whole _ (bare.digits (fun _ => id) point)
      rintro rfl
      cases head

theorem IsDecimal.points (h : IsDecimal cs) : cs.count '.' ≤ 1 ∧ cs.getLast? ≠ some '.' :=
  (isDecimal_iff h.isBare h.begins).mp h

theorem IsDecimal.behind {front rest : List Char} (h : IsDecimal (front ++ c :: rest))
    (digit : isDigit c = true) : IsDecimal (c :: rest) := by
  have bare : IsBare (c :: rest) := fun d member => h.isBare d (List.mem_append_right _ member)
  have points := h.points
  rw [List.getLast?_append_of_ne_nil _ (List.cons_ne_nil c rest)] at points
  rw [isDecimal_iff bare ⟨c, rfl, digit⟩]
  exact ⟨le_trans ((List.sublist_append_right front _).count_le '.') points.1, points.2⟩

theorem IsDecimal.unsigned? (negative : Bool) (h : IsDecimal cs) :
    ∃ x, Number.unsigned? negative cs = some x := by
  cases h with
  | whole nonempty digits =>
      have taken := List.takeWhile_eq_self_iff.mpr digits
      have dropped := List.dropWhile_eq_nil_iff.mpr digits
      unfold Number.unsigned?
      simp [taken, dropped, nonempty, exponent?]
  | @pointed ds fs nonempty digits _ more =>
      have taken := List.takeWhile_eq_self_iff.mpr more
      have dropped := List.dropWhile_eq_nil_iff.mpr more
      have point : isDigit '.' = false := by decide
      unfold Number.unsigned?
      simp [List.takeWhile_append_of_pos digits, List.dropWhile_append_of_pos digits, point, taken,
        dropped, nonempty, exponent?]

theorem IsDecimal.read? (h : IsDecimal cs) : ∃ x, Number.read? cs = some x := by
  have digit := h.head_isDigit
  have unsigned := h.unsigned? false
  cases cs with
  | nil => exact absurd rfl h.ne_nil
  | cons c rest =>
      have first := digit c rfl
      unfold Number.read?
      rw [takeSign_of_isDigit first]
      dsimp only
      rw [named?_of_isDigit first]
      exact unsigned

end Number

namespace JikiScript

open Number

variable {c : Char} {cs : List Char}

/-- A number as far as the scanner reads on: a digit, then digits, letters, underscores and
points. -/
structure IsNumberRun (cs : List Char) : Prop where
  begins : ∃ d ∈ cs.head?, isDigit d = true
  parts : ∀ d ∈ cs, isNumberPart d = true

theorem IsNumberRun.whole_ne_nil {ds fs : List Char} (run : IsNumberRun (ds ++ '.' :: fs)) :
    ds ≠ [] := by
  rintro rfl
  obtain ⟨d, first, digit⟩ := run.begins
  cases first
  cases digit

theorem IsNumberRun.isBare (run : IsNumberRun cs) (plain : ¬ ∃ d ∈ cs, isNameStart d = true) :
    IsBare cs := by
  intro d member
  have part := run.parts d member
  have unnamed : ¬ isNameStart d = true := fun named => plain ⟨d, member, named⟩
  unfold isNumberPart isNamePart at part
  unfold isNameStart at unnamed
  grind

inductive Checked (cs : List Char) : Except Mistake Float → Prop
  | letters : (∃ d ∈ cs, isNameStart d = true) → Checked cs (.error (.numberContainsLetters
      (String.ofList (cs.filter fun c => isDigit c || c == '.'))))
  | points : IsBare cs → 1 < cs.count '.' → Checked cs (.error (.numberWithTwoPoints
      (String.ofList (cs.takeWhile (· != '.') ++
        '.' :: (cs.dropWhile (· != '.')).filter (· != '.')))))
  | lastPoint : IsBare cs → cs.count '.' ≤ 1 → cs.getLast? = some '.' →
      Checked cs (.error (.numberEndsWithPoint (String.ofList cs.dropLast)))
  | idleZero : IsDecimal cs → HasIdleZero cs →
      Checked cs (.error (.numberStartsWithZero (String.ofList (cs.dropWhile (· == '0')))))
  | number {x : Float} : IsDecimal cs → ¬ HasIdleZero cs → read? cs = some x → Checked cs (.ok x)

theorem hasIdleZero_iff : HasIdleZero cs ↔
    (cs.length > 1 && cs.head? = some '0' && cs.tail.head? ≠ some '.') = true := by
  unfold HasIdleZero
  match cs with
  | [] => simp
  | [c] => simp
  | c :: d :: rest =>
      constructor
      · rintro ⟨e, more, split, other⟩
        cases split
        simpa using other
      · intro idle
        simp at idle
        obtain ⟨rfl, other⟩ := idle
        exact ⟨d, rest, rfl, other⟩

theorem checkNumber_checked (run : IsNumberRun cs) : Checked cs (checkNumber cs) := by
  unfold checkNumber
  dsimp only
  split
  · next named => exact .letters (by simpa using named)
  · next plain =>
      have bare := run.isBare (by simpa using plain)
      rw [← List.count_eq_length_filter]
      split
      · next twice => exact .points bare twice
      · next once =>
          split
          · next last => exact .lastPoint bare (Nat.le_of_not_lt once) last
          · next last =>
              have decimal := (isDecimal_iff bare run.begins).mpr ⟨Nat.le_of_not_lt once, last⟩
              split
              · next idle => exact .idleZero decimal (hasIdleZero_iff.mpr idle)
              · next tidy =>
                  obtain ⟨x, read⟩ := decimal.read?
                  rw [read]
                  exact .number decimal (mt hasIdleZero_iff.mp tidy) read

theorem isNumberRun_of_isBare (bare : IsBare cs) (begins : ∃ d ∈ cs.head?, isDigit d = true) :
    IsNumberRun cs := by
  refine ⟨begins, ?_⟩
  intro d member
  rcases bare d member with digit | rfl
  · simp [isNumberPart, isNamePart, digit]
  · rfl

theorem isNumberRun_of_isDecimal (decimal : IsDecimal cs) : IsNumberRun cs :=
  isNumberRun_of_isBare decimal.isBare decimal.begins

theorem not_isNameStart_of_isBare (bare : IsBare cs) : ¬ ∃ d ∈ cs, isNameStart d = true := by
  rintro ⟨d, member, starts⟩
  rcases bare d member with digit | rfl
  · rcases (Bool.or_eq_true _ _).mp starts with letter | line
    · rw [Text.not_isDigit_of_isLetter letter] at digit
      cases digit
    · rw [beq_iff_eq] at line
      subst line
      exact absurd digit (by decide)
  · exact absurd starts (by decide)

/-- The numbers that pass the checks are the decimals without an idle zero. -/
theorem checkNumber_eq_ok (run : IsNumberRun cs) {x : Float} :
    checkNumber cs = .ok x ↔ IsDecimal cs ∧ ¬ HasIdleZero cs ∧ read? cs = some x := by
  have checked := checkNumber_checked run
  generalize checkNumber cs = outcome at checked ⊢
  constructor
  · rintro rfl
    cases checked with
    | number decimal tidy read => exact ⟨decimal, tidy, read⟩
  · rintro ⟨decimal, tidy, read⟩
    cases checked with
    | letters named => exact absurd named (not_isNameStart_of_isBare decimal.isBare)
    | points _ twice => exact absurd decimal.points.1 (Nat.not_le_of_lt twice)
    | lastPoint _ _ last => exact absurd last decimal.points.2
    | idleZero _ idle => exact absurd idle tidy
    | number _ _ found => rw [Option.some.inj (found.symm.trans read)]

end JikiScript
end Walkthrough
