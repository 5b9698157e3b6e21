import Walkthrough.Proofs.Rounding

/-! The order of doubles, and their sums. What can be compared at all is ordered by its side of
zero, then by exponent and mantissa. A sum of doubles that are not negative is rounded, but never
below one of them. -/

namespace Walkthrough.Number.Rounding

open Float.Model Float.Model.UnpackedFloat

/-- The place of a number among the others: its side of zero, its exponent and its mantissa. What is
no number has none that counts. -/
def place : UnpackedFloat → ℤ ×ₗ ℤ ×ₗ ℤ
  | .notANumber => toLex (0, toLex (0, 0))
  | .infinity .negative => toLex (-2, toLex (0, 0))
  | .finite .negative m e _ => toLex (-1, toLex (-e, -m))
  | .zero _ => toLex (0, toLex (0, 0))
  | .finite .positive m e _ => toLex (1, toLex (e, m))
  | .infinity .positive => toLex (2, toLex (0, 0))

theorem isLE_compare_place {e f : Int} {m n : Nat} :
    ((compare e f).then (compare m n)).isLE = true ↔ e < f ∨ e = f ∧ m ≤ n := by
  rw [Ordering.isLE_then_iff_or, Int.compare_eq_lt, Int.compare_eq_eq, Nat.isLE_compare]

theorem isGE_compare_place {e f : Int} {m n : Nat} :
    ((compare e f).then (compare m n)).isGE = true ↔ f < e ∨ e = f ∧ n ≤ m := by
  rw [← Ordering.isLE_swap, Ordering.swap_then, Std.OrientedOrd.eq_swap (a := e),
    Std.OrientedOrd.eq_swap (a := m), Ordering.swap_swap, Ordering.swap_swap, isLE_compare_place,
    eq_comm]

theorem le_iff_place (x y : UnpackedFloat) :
    x.le y = true ↔ x.isNaN = false ∧ y.isNaN = false ∧ place x ≤ place y := by
  have signs : ∀ s t : Sign, (compare s t).isLE = true ↔
      place (.infinity s) ≤ place (.infinity t) := by
    intro s t
    cases s <;> cases t <;> decide
  rcases x with s | _ | _ | ⟨_ | _, m, e, _⟩ <;> rcases y with t | _ | _ | ⟨_ | _, n, f, _⟩
  case infinity.infinity =>
    simpa [UnpackedFloat.le, UnpackedFloat.compare, UnpackedFloat.isNaN] using signs s t
  all_goals try cases s
  all_goals try cases t
  all_goals simp [UnpackedFloat.le, UnpackedFloat.compare, place, UnpackedFloat.isNaN,
    Prod.Lex.toLex_le_toLex, isLE_compare_place, isGE_compare_place]

section Order

variable {x y z : Float}

theorem le_iff_unpack (x y : Float) :
    x ≤ y ↔ x.toModel.unpack.le y.toModel.unpack = true := by
  change decide (x.toModel.unpack.le y.toModel.unpack = true) = true ↔ _
  rw [decide_eq_true_iff]

theorem le_iff (x y : Float) : x ≤ y ↔
    x.isNaN = false ∧ y.isNaN = false ∧ place x.toModel.unpack ≤ place y.toModel.unpack :=
  (le_iff_unpack x y).trans (le_iff_place _ _)

theorem le_trans (first : x ≤ y) (second : y ≤ z) : x ≤ z := by
  rw [le_iff] at *
  exact ⟨first.1, second.2.1, first.2.2.trans second.2.2⟩

theorem le_refl_iff : x ≤ x ↔ x.isNaN = false := by
  rw [le_iff]
  exact ⟨fun h => h.1, fun h => ⟨h, h, le_rfl⟩⟩

theorem le_total_of (hx : x.isNaN = false) (hy : y.isNaN = false) : x ≤ y ∨ y ≤ x := by
  rw [le_iff, le_iff]
  rcases le_total (place x.toModel.unpack) (place y.toModel.unpack) with le | ge
  · exact Or.inl ⟨hx, hy, le⟩
  · exact Or.inr ⟨hy, hx, ge⟩

end Order

/-! ### What bits can hold -/

/-- What is left of a result when it is put into bits and taken out of them. -/
def stored (x : UnpackedFloat) : UnpackedFloat :=
  UnpackedFloat.unpack Format.binary64 (UnpackedFloat.pack Format.binary64 x)

/-- The mantissa fills its digits, or else the exponent is the least one. -/
structure Settled (m : Nat) (e : Int) : Prop where
  positive : 0 < m
  high : m < 2 ^ 53
  low : -1074 ≤ e
  full : 2 ^ 52 ≤ m ∨ e = -1074

theorem exponentBias_eq : Format.binary64.exponentBias = 1023 := by
  decide

theorem toNat_implicitBit {k : Nat} (b : BitVec k) : (1#1 ++ b).toNat = 2 ^ k + b.toNat := by
  rw [BitVec.toNat_append, ← Nat.shiftLeft_add_eq_or_of_lt b.isLt, Nat.shiftLeft_eq]
  simp

theorem settled_of_unpack {bits : BitVec Format.binary64.numBits} {sign : Sign} {m : Nat} {e : Int}
    {hm : 0 < m} (unpacked : UnpackedFloat.unpack Format.binary64 bits = .finite sign m e hm) :
    Settled m e := by
  have short : (unpackMantissa bits).toNat < 2 ^ 52 := (unpackMantissa bits).isLt
  unfold UnpackedFloat.unpack at unpacked
  rw [exponentBias_eq] at unpacked
  dsimp only at unpacked
  split at unpacked
  · split at unpacked <;> cases unpacked
  · split at unpacked
    · next subnormal =>
        split at unpacked
        · cases unpacked
        · obtain ⟨-, rfl, rfl⟩ := UnpackedFloat.finite.inj unpacked
          rw [subnormal]
          exact ⟨hm, Nat.lt_trans short (by decide), by decide, Or.inr (by decide)⟩
    · next normal =>
        obtain ⟨-, rfl, rfl⟩ := UnpackedFloat.finite.inj unpacked
        have some : (unpackExponent bits).toNat ≠ 0 := by
          rw [← BitVec.toNat_zero]
          exact fun same => normal (BitVec.toNat_inj.mp same)
        rw [toNat_implicitBit] at hm ⊢
        change 0 < 2 ^ 52 + _ at hm
        refine ⟨hm, ?_, ?_, Or.inl ?_⟩
        · change 2 ^ 52 + _ < _
          omega
        · change _ ≤ _ - (1023 + 52 : Int)
          omega
        · change _ ≤ 2 ^ 52 + _
          omega

theorem stored_subnormal {m : Nat} (positive : 0 < m) (low : m < 2 ^ 52) :
    stored (.finite .positive m (-1074) positive) = .finite .positive m (-1074) positive := by
  have notFull : m.log2 + 1 ≠ Format.binary64.mantissaBits := by
    have small := (Nat.log2_lt (Nat.ne_of_gt positive)).mpr low
    change m.log2 + 1 ≠ 53
    omega
  have inRange : ¬ 2 ^ Format.binary64.exponentBits ≤
      ((-1074 : Int) + Format.binary64.exponentBias +
        Format.binary64.mantissaBitsWithoutImplicit).toNat + 1 := by
    decide
  have same : (BitVec.ofNat Format.binary64.mantissaBitsWithoutImplicit m).toNat = m :=
    Nat.mod_eq_of_lt low
  have nonzero : BitVec.ofNat Format.binary64.mantissaBitsWithoutImplicit m ≠ 0#_ := by
    intro zero
    rw [zero] at same
    exact absurd same (Nat.ne_of_lt positive)
  rw [stored, UnpackedFloat.pack, if_neg inRange, if_neg notFull]
  simp only [UnpackedFloat.unpack, unpackExponent_packComponents, unpackMantissa_packComponents,
    unpackSign_packComponents, nonzero, same]
  rfl

theorem stored_infinity : stored (.infinity .positive) = .infinity .positive :=
  rfl

/-- What is settled comes back from its bits, unless it is too large for them. -/
theorem stored_settled {m : Nat} {e : Int} (settled : Settled m e) :
    stored (.finite .positive m e settled.positive) = .finite .positive m e settled.positive ∨
      stored (.finite .positive m e settled.positive) = .infinity .positive := by
  by_cases large : 2 ^ 11 ≤ (e + 1023 + 52).toNat + 1
  · refine Or.inr ?_
    have packed : UnpackedFloat.pack Format.binary64 (.finite .positive m e settled.positive) =
        UnpackedFloat.pack Format.binary64 (.infinity .positive) := by
      unfold UnpackedFloat.pack
      rw [exponentBias_eq]
      exact if_pos large
    rw [stored, packed]
    exact stored_infinity
  · refine Or.inl ?_
    by_cases full : 2 ^ 52 ≤ m
    · have size : m.log2 = 52 :=
        (Nat.log2_eq_iff (Nat.ne_of_gt settled.positive)).mpr ⟨full, settled.high⟩
      have low := settled.low
      refine unpack_pack_normal settled.positive (by rw [size]; rfl) ?_ ?_
      · rw [exponentBias_eq]
        change 0 < e + 1023 + 52
        omega
      · rw [exponentBias_eq]
        exact Nat.not_le.mp large
    · obtain rfl := settled.full.resolve_left full
      exact stored_subnormal settled.positive (Nat.not_le.mp full)

/-! ### Rounding -/

theorem shift_settled {m : Nat} {e : Int} (settled : Settled m e) :
    shiftToTargetExponent Format.binary64 m e .exact = (exactly m, e) := by
  have size : m.log2 < 53 := (Nat.log2_lt (Nat.ne_of_gt settled.positive)).mpr settled.high
  have low := settled.low
  have none : (max ((m.log2 : Int) + e - 52) (-1074) - e).toNat = 0 := by omega
  rw [shiftToTargetExponent, targetExponent_eq, shiftToExponent, none]
  simp [exactly, ExtendedMantissa.ofMantissaAndAccuracy, HShiftRight.hShiftRight, Nat.repeat]

/-- The digits that are kept of a mantissa when the last ones are shifted out. -/
def kept (m k : Nat) : Nat :=
  (exactly m >>> k).roundedMantissa

theorem kept_mono {m n : Nat} (k : Nat) (h : m ≤ n) : kept m k ≤ kept n k :=
  roundedMantissa_mono (quarters_shiftRight_mono k (exactly_mono h))

theorem kept_scaled (m k : Nat) : kept (m * 2 ^ k) k = m := by
  rw [kept, exactly_shiftRight]
  rfl

/-- If the mantissa is shifted so far that its exponent becomes the target, it is rounded there, and
a carry is taken care of. -/
theorem round_shifted {m k : Nat} {e : Int}
    (target : max ((m.log2 : Int) + e - 52) (-1074) = e + k) (positive : 0 < kept m k)
    (high : kept m k ≤ 2 ^ 53) (full : 2 ^ 52 ≤ kept m k ∨ e + k = -1074) :
    ∃ r t, ∃ h : Settled r t, UnpackedFloat.round Format.binary64 .positive m e =
      .finite .positive r t h.positive ∧
      (r = kept m k ∧ t = e + k ∨ r = 2 ^ 52 ∧ t = e + k + 1) := by
  have low : -1074 ≤ e + k := by omega
  have stays : (e - (e + k)).toNat = 0 := by omega
  have moves : (e + k - e).toNat = k := by omega
  have first : shiftToTargetExponent Format.binary64 m e .exact = (exactly m >>> k, e + k) := by
    rw [shiftToTargetExponent, targetExponent_eq, target, shiftToExponent, moves]
    rfl
  have rounded : UnpackedFloat.round Format.binary64 .positive m e =
      roundWithAccuracy Format.binary64 .positive m e .exact := by
    rw [UnpackedFloat.round, targetExponent_eq, target, decreaseExponent, stays]
    simp
  rw [rounded, roundWithAccuracy, first]
  dsimp only
  rw [← kept]
  by_cases carry : kept m k < 2 ^ 53
  · have settled : Settled (kept m k) (e + k) := ⟨positive, carry, low, full⟩
    rw [shift_settled settled]
    refine ⟨kept m k, e + k, settled, ?_, Or.inl ⟨rfl, rfl⟩⟩
    exact dif_neg (Nat.ne_of_gt positive)
  · have top : 2 ^ 52 ≤ kept m k := by omega
    have settled : Settled (2 ^ 52) (e + k + 1) :=
      ⟨by decide, by decide, by omega, Or.inl (Nat.le_refl _)⟩
    rw [shift_after_rounding top high low, if_neg carry]
    refine ⟨2 ^ 52, e + k + 1, settled, ?_, Or.inr ⟨rfl, rfl⟩⟩
    exact dif_neg (show (2 ^ 52 : Nat) ≠ 0 by decide)

theorem le_round {m n : Nat} {e f : Int} (settled : Settled n f) (le : e ≤ f)
    (above : n * 2 ^ (f - e).toNat ≤ m) :
    ∃ r t, ∃ h : Settled r t, UnpackedFloat.round Format.binary64 .positive m e =
      .finite .positive r t h.positive ∧ (f < t ∨ f = t ∧ n ≤ r) := by
  have scaled : 0 < n * 2 ^ (f - e).toNat := Nat.mul_pos settled.positive (Nat.two_pow_pos _)
  have positive : m ≠ 0 := by omega
  -- the place to round at is not below that of the smaller number
  have size : n.log2 + (f - e).toNat ≤ m.log2 := by
    rw [← log2_scaled settled.positive, Nat.le_log2 positive]
    exact (Nat.log2_self_le (Nat.ne_of_gt scaled)).trans above
  have reaches : f ≤ max ((m.log2 : Int) + e - 52) (-1074) := by
    rcases settled.full with full | bottom
    · have digits : 52 ≤ n.log2 := (Nat.le_log2 (Nat.ne_of_gt settled.positive)).mpr full
      omega
    · omega
  obtain ⟨k, shift⟩ := Int.le.dest (le.trans reaches)
  have target := shift.symm
  have same (level : e + k = f) : n ≤ kept m k := by
    have shift : (f - e).toNat = k := by omega
    rw [shift] at above
    rw [← kept_scaled n k]
    exact kept_mono k above
  have full : 2 ^ 52 ≤ kept m k ∨ e + k = -1074 := by
    by_cases bottom : e + k = -1074
    · exact Or.inr bottom
    · have digits : m.log2 = 52 + k := by omega
      refine Or.inl ?_
      rw [← kept_scaled (2 ^ 52) k, ← Nat.pow_add, ← digits]
      exact kept_mono k (Nat.log2_self_le positive)
  have high : kept m k ≤ 2 ^ 53 := by
    have digits : m.log2 + 1 ≤ 53 + k := by omega
    rw [← kept_scaled (2 ^ 53) k, ← Nat.pow_add]
    refine kept_mono k (Nat.le_of_lt (Nat.lt_log2_self.trans_le ?_))
    exact Nat.pow_le_pow_right (by decide) digits
  have some : 0 < kept m k := by
    rcases full with full | bottom
    · omega
    · have low := settled.low
      exact settled.positive.trans_le (same (by omega))
  obtain ⟨r, t, h, rounded, shape⟩ := round_shifted target some high full
  refine ⟨r, t, h, rounded, ?_⟩
  rcases shape with ⟨rfl, rfl⟩ | ⟨rfl, rfl⟩
  · rcases Int.lt_or_eq_of_le (show f ≤ e + k by omega) with above | level
    · exact Or.inl above
    · exact Or.inr ⟨level, same level.symm⟩
  · exact Or.inl (by omega)

/-! ### Sums -/

theorem stored_unpack (x : Float) : stored x.toModel.unpack = x.toModel.unpack := by
  unfold stored
  congr 1
  exact pack_unpack_of_valid x.toModel.valid

theorem unpack_add (x y : Float) : (x + y).toModel.unpack =
    stored (UnpackedFloat.add Format.binary64 x.toModel.unpack y.toModel.unpack) :=
  rfl

theorem le_infinity {x : UnpackedFloat} (number : x.isNaN = false) :
    x.le (.infinity .positive) = true := by
  rcases x with s | _ | _ | ⟨_ | _, m, e, _⟩
  · cases s <;> rfl
  · cases number
  · rfl
  · rfl
  · rfl

theorem le_add_finite {m n : Nat} {e f : Int} {hm : 0 < m} (settled : Settled n f) :
    (UnpackedFloat.finite .positive n f settled.positive).le
      (stored (UnpackedFloat.add Format.binary64 (.finite .positive m e hm)
        (.finite .positive n f settled.positive))) = true := by
  let total := m <<< (e - min e f).toNat + n <<< (f - min e f).toNat
  have above : n * 2 ^ (f - min e f).toNat ≤ total := by
    rw [← Nat.shiftLeft_eq]
    exact Nat.le_add_left _ _
  obtain ⟨r, t, h, rounded, places⟩ := le_round settled (Int.min_le_right e f) above
  have some : 0 < total :=
    (Nat.mul_pos settled.positive (Nat.two_pow_pos _)).trans_le above
  have positive : compare (total : Int) 0 = .gt := by
    rw [Int.compare_eq_gt]
    omega
  have sum : UnpackedFloat.add Format.binary64 (.finite .positive m e hm)
      (.finite .positive n f settled.positive) = .finite .positive r t h.positive := by
    rw [← rounded]
    change normalize Format.binary64 (total : Int) (min e f) .positive = _
    unfold UnpackedFloat.normalize
    rw [positive]
    rfl
  rw [sum]
  rcases stored_settled h with same | infinite
  · rw [same, le_iff_place]
    refine ⟨rfl, rfl, ?_⟩
    simp only [place, Prod.Lex.toLex_le_toLex]
    exact Or.inr ⟨trivial, by omega⟩
  · rw [infinite]
    rfl

theorem unpack_zero : (0.0 : Float).toModel.unpack = .zero .positive :=
  rfl

theorem nonnegative_cases {x : Float} (h : 0.0 ≤ x) :
    (∃ s, x.toModel.unpack = .zero s) ∨
      (∃ m e, ∃ settled : Settled m e,
        x.toModel.unpack = .finite .positive m e settled.positive) ∨
      x.toModel.unpack = .infinity .positive := by
  rw [le_iff_unpack, unpack_zero] at h
  cases unpacked : x.toModel.unpack with
  | zero s => exact Or.inl ⟨s, rfl⟩
  | notANumber =>
      rw [unpacked] at h
      cases h
  | infinity s =>
      rw [unpacked] at h
      cases s with
      | positive => exact Or.inr (Or.inr rfl)
      | negative => cases h
  | finite s m e hm =>
      rw [unpacked] at h
      cases s with
      | positive => exact Or.inr (Or.inl ⟨m, e, settled_of_unpack unpacked, rfl⟩)
      | negative => cases h

/-- Rounding takes no sum of numbers that are not negative below one of them. -/
theorem le_add_right {x y : Float} (hx : 0.0 ≤ x) (hy : 0.0 ≤ y) : y ≤ x + y := by
  have number : y.toModel.unpack.isNaN = false := ((le_iff _ _).mp hy).2.1
  rw [le_iff_unpack, unpack_add]
  have infinite (sum : UnpackedFloat.add Format.binary64 x.toModel.unpack y.toModel.unpack =
      .infinity .positive) : y.toModel.unpack.le (stored
        (UnpackedFloat.add Format.binary64 x.toModel.unpack y.toModel.unpack)) = true := by
    rw [sum, stored_infinity]
    exact le_infinity number
  rcases nonnegative_cases hx with ⟨s, hu⟩ | ⟨m, e, _, hu⟩ | hu
  · rcases nonnegative_cases hy with ⟨t, hv⟩ | ⟨n, f, _, hv⟩ | hv
    · rw [hu, hv]
      cases s <;> cases t <;> rfl
    · have second : UnpackedFloat.add Format.binary64 x.toModel.unpack y.toModel.unpack =
          y.toModel.unpack := by
        rw [hu, hv]
        rfl
      rw [second, stored_unpack, le_iff_place]
      exact ⟨number, number, le_rfl⟩
    · exact infinite (by rw [hu, hv]; rfl)
  · rcases nonnegative_cases hy with ⟨t, hv⟩ | ⟨n, f, settled, hv⟩ | hv
    · have first : UnpackedFloat.add Format.binary64 x.toModel.unpack y.toModel.unpack =
          x.toModel.unpack := by
        rw [hu, hv]
        rfl
      rw [first, stored_unpack, hu, hv]
      rfl
    · rw [hu, hv]
      exact le_add_finite settled
    · exact infinite (by rw [hu, hv]; rfl)
  · rcases nonnegative_cases hy with ⟨t, hv⟩ | ⟨n, f, _, hv⟩ | hv
    · exact infinite (by rw [hu, hv]; rfl)
    · exact infinite (by rw [hu, hv]; rfl)
    · exact infinite (by rw [hu, hv]; rfl)

end Walkthrough.Number.Rounding
