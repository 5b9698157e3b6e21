import Mathlib

/-! Words as doubles. A 64-bit word becomes the nearest double, of two equally near ones the even
one, and a larger word never becomes a smaller double. So a limit that is raised never refuses a
number that it let pass before. -/

namespace Walkthrough.Number.Rounding

open Float.Model Float.Model.UnpackedFloat

/-- A mantissa with its two residual bits as one number, in quarters of its last place. -/
def quarters (em : ExtendedMantissa) : Nat :=
  4 * em.mantissa + 2 * em.roundBit.toNat + em.stickyBit.toNat

theorem quarters_shiftRightOne (em : ExtendedMantissa) :
    quarters em.shiftRightOne = 2 * (quarters em / 4) + min (quarters em % 4) 1 := by
  obtain ⟨m, r, s⟩ := em
  rcases Nat.mod_two_eq_zero_or_one m with hm | hm <;> cases r <;> cases s <;>
    simp [quarters, ExtendedMantissa.shiftRightOne, hm] <;> omega

theorem quarters_shiftRightOne_mono {a b : ExtendedMantissa} (h : quarters a ≤ quarters b) :
    quarters a.shiftRightOne ≤ quarters b.shiftRightOne := by
  rw [quarters_shiftRightOne, quarters_shiftRightOne]
  omega

theorem shiftRight_succ (em : ExtendedMantissa) (n : Nat) :
    em >>> (n + 1) = (em >>> n).shiftRightOne := rfl

theorem quarters_shiftRight_mono {a b : ExtendedMantissa} (n : Nat)
    (h : quarters a ≤ quarters b) : quarters (a >>> n) ≤ quarters (b >>> n) := by
  induction n with
  | zero => exact h
  | succ n ih =>
      rw [shiftRight_succ, shiftRight_succ]
      exact quarters_shiftRightOne_mono ih

theorem roundedMantissa_mono {a b : ExtendedMantissa} (h : quarters a ≤ quarters b) :
    a.roundedMantissa ≤ b.roundedMantissa := by
  obtain ⟨m, r, s⟩ := a
  obtain ⟨n, t, u⟩ := b
  cases r <;> cases s <;> cases t <;> cases u <;>
    simp [quarters, ExtendedMantissa.roundedMantissa, ExtendedMantissa.accuracy,
      Accuracy.roundToNearestEven] at h ⊢ <;> omega

def exactly (m : Nat) : ExtendedMantissa := ⟨m, false, false⟩

theorem exactly_mono {m n : Nat} (h : m ≤ n) : quarters (exactly m) ≤ quarters (exactly n) := by
  simp only [quarters, exactly]
  omega

theorem exactly_shiftRight (q n : Nat) : exactly (q * 2 ^ n) >>> n = exactly q := by
  induction n generalizing q with
  | zero => simp [exactly, HShiftRight.hShiftRight, Nat.repeat]
  | succ n ih =>
      have double : q * 2 ^ (n + 1) = 2 * q * 2 ^ n := by ring
      rw [shiftRight_succ, double, ih]
      simp [exactly, ExtendedMantissa.shiftRightOne]

/-- A positive word brought to 53 binary digits, before a carry is taken care of. -/
def digits (n : Nat) : Nat :=
  (exactly (n * 2 ^ (52 - n.log2)) >>> (n.log2 - 52)).roundedMantissa

theorem digits_mono {m n : Nat} (h : m ≤ n) (same : m.log2 = n.log2) : digits m ≤ digits n := by
  rw [digits, digits, same]
  exact roundedMantissa_mono
    (quarters_shiftRight_mono _ (exactly_mono (Nat.mul_le_mul_right _ h)))

theorem digits_bounds {n : Nat} (hn : 0 < n) : 2 ^ 52 ≤ digits n ∧ digits n ≤ 2 ^ 53 := by
  have low := Nat.log2_self_le (Nat.ne_of_gt hn)
  have high := Nat.le_of_lt (Nat.lt_log2_self (n := n))
  -- the two powers of two around the word, written with the zeros that will be shifted out
  have below : 2 ^ n.log2 * 2 ^ (52 - n.log2) = 2 ^ 52 * 2 ^ (n.log2 - 52) := by
    rw [← Nat.pow_add, ← Nat.pow_add]
    congr 1
    omega
  have above : 2 ^ (n.log2 + 1) * 2 ^ (52 - n.log2) = 2 ^ 53 * 2 ^ (n.log2 - 52) := by
    rw [← Nat.pow_add, ← Nat.pow_add]
    congr 1
    omega
  have lower := roundedMantissa_mono (quarters_shiftRight_mono (n.log2 - 52)
    (exactly_mono (Nat.mul_le_mul_right (2 ^ (52 - n.log2)) low)))
  have upper := roundedMantissa_mono (quarters_shiftRight_mono (n.log2 - 52)
    (exactly_mono (Nat.mul_le_mul_right (2 ^ (52 - n.log2)) high)))
  rw [below, exactly_shiftRight] at lower
  rw [above, exactly_shiftRight] at upper
  exact ⟨lower, upper⟩

def mantissa (n : Nat) : Nat := if digits n < 2 ^ 53 then digits n else 2 ^ 52

def exponent (n : Nat) : Int := if digits n < 2 ^ 53 then n.log2 - 52 else n.log2 - 51

theorem mantissa_bounds {n : Nat} (hn : 0 < n) : 2 ^ 52 ≤ mantissa n ∧ mantissa n < 2 ^ 53 := by
  have bounds := digits_bounds hn
  unfold mantissa
  split <;> omega

theorem exponent_bounds (n : Nat) :
    (n.log2 : Int) - 52 ≤ exponent n ∧ exponent n ≤ n.log2 - 51 := by
  unfold exponent
  split <;> omega

theorem place_mono {m n : Nat} (hm : 0 < m) (h : m ≤ n) :
    exponent m < exponent n ∨ exponent m = exponent n ∧ mantissa m ≤ mantissa n := by
  have hn : 0 < n := Nat.lt_of_lt_of_le hm h
  have order : m.log2 ≤ n.log2 := by
    rw [Nat.le_log2 (Nat.ne_of_gt hn)]
    exact Nat.le_trans (Nat.log2_self_le (Nat.ne_of_gt hm)) h
  have boundsM := digits_bounds hm
  have boundsN := mantissa_bounds hn
  by_cases same : m.log2 = n.log2
  · have step := digits_mono h same
    unfold exponent mantissa
    rw [same]
    split <;> split <;> omega
  · have boundN := exponent_bounds n
    by_cases carry : digits m < 2 ^ 53
    · left
      simp only [exponent, carry, if_true] at boundN ⊢
      omega
    · simp only [exponent, mantissa, carry, if_false] at boundN boundsN ⊢
      omega

theorem targetExponent_eq (m : Nat) (e : Int) :
    Format.binary64.targetExponent (totalExponent m e) = max (m.log2 + e - 52) (-1074) := by
  simp only [Format.targetExponent, totalExponent, Format.mantissaBits, Format.minExponent]
  omega

theorem log2_scaled {n : Nat} (hn : 0 < n) (k : Nat) : (n * 2 ^ k).log2 = n.log2 + k := by
  have nonzero : n * 2 ^ k ≠ 0 := Nat.ne_of_gt (Nat.mul_pos hn (Nat.two_pow_pos k))
  rw [Nat.log2_eq_iff nonzero]
  have low := Nat.mul_le_mul_right (2 ^ k) (Nat.log2_self_le (Nat.ne_of_gt hn))
  have high := Nat.mul_lt_mul_of_pos_right (Nat.lt_log2_self (n := n)) (Nat.two_pow_pos k)
  rw [← Nat.pow_add] at low high
  exact ⟨low, by rwa [Nat.add_right_comm] at high⟩

/-- The second shift of a rounding takes care of a carry and does nothing else. -/
theorem shift_after_rounding {r : Nat} {e : Int} (low : 2 ^ 52 ≤ r) (high : r ≤ 2 ^ 53)
    (he : -1074 ≤ e) :
    shiftToTargetExponent Format.binary64 r e .exact =
      if r < 2 ^ 53 then (exactly r, e) else (exactly (2 ^ 52), e + 1) := by
  have positive : r ≠ 0 := by omega
  rw [shiftToTargetExponent, targetExponent_eq, shiftToExponent]
  by_cases carry : r < 2 ^ 53
  · have size : r.log2 = 52 := (Nat.log2_eq_iff positive).mpr ⟨low, carry⟩
    have none : (max ((r.log2 : Int) + e - 52) (-1074) - e).toNat = 0 := by omega
    rw [if_pos carry, none]
    simp [exactly, ExtendedMantissa.ofMantissaAndAccuracy, HShiftRight.hShiftRight, Nat.repeat]
  · have top : r = 2 ^ 53 := by omega
    subst top
    have one : (max (((2 ^ 53 : Nat).log2 : Int) + e - 52) (-1074) - e).toNat = 1 := by
      rw [Nat.log2_two_pow]
      omega
    rw [if_neg carry, one]
    rfl

theorem round_word {n : Nat} (hn : 0 < n) :
    UnpackedFloat.round Format.binary64 .positive n 0 =
      .finite .positive (mantissa n) (exponent n)
        (Nat.lt_of_lt_of_le (by decide) (mantissa_bounds hn).1) := by
  have bounds := digits_bounds hn
  have scaled := log2_scaled hn (52 - n.log2)
  have left : (0 - max ((n.log2 : Int) + 0 - 52) (-1074)).toNat = 52 - n.log2 := by omega
  have right : (max (((n * 2 ^ (52 - n.log2)).log2 : Int) + (0 - (52 - n.log2 : Nat)) - 52) (-1074)
      - (0 - (52 - n.log2 : Nat))).toNat = n.log2 - 52 := by
    rw [scaled]
    omega
  have place : (0 - (52 - n.log2 : Nat) + (n.log2 - 52 : Nat) : Int) = n.log2 - 52 := by omega
  have first : shiftToTargetExponent Format.binary64 (n * 2 ^ (52 - n.log2))
      (0 - (52 - n.log2 : Nat)) .exact =
      (exactly (n * 2 ^ (52 - n.log2)) >>> (n.log2 - 52), (n.log2 : Int) - 52) := by
    rw [shiftToTargetExponent, targetExponent_eq, shiftToExponent, right, place]
    rfl
  have second : shiftToTargetExponent Format.binary64
      (exactly (n * 2 ^ (52 - n.log2)) >>> (n.log2 - 52)).roundedMantissa ((n.log2 : Int) - 52)
      .exact = (exactly (mantissa n), exponent n) := by
    rw [← digits, shift_after_rounding bounds.1 bounds.2 (by omega), mantissa, exponent]
    split
    · rfl
    · exact Prod.ext rfl (by omega)
  have positive : (exactly (mantissa n)).mantissa ≠ 0 := by
    have := (mantissa_bounds hn).1
    simp only [exactly]
    omega
  rw [UnpackedFloat.round, targetExponent_eq, decreaseExponent, left, Nat.shiftLeft_eq]
  simp only [roundWithAccuracy, first, second, positive, dif_neg, not_false_eq_true]
  rfl

theorem implicitBit_append {k m : Nat} (low : 2 ^ k ≤ m) (high : m < 2 ^ (k + 1)) :
    (1#1 ++ BitVec.ofNat k m).toNat = m := by
  have whole : m % 2 ^ k = m - 2 ^ k := by
    rw [Nat.mod_eq_sub_mod low, Nat.mod_eq_of_lt]
    rw [Nat.pow_succ] at high
    omega
  rw [BitVec.toNat_append, BitVec.toNat_ofNat, BitVec.toNat_ofNat,
    ← Nat.shiftLeft_add_eq_or_of_lt (Nat.mod_lt m (Nat.two_pow_pos k)), Nat.shiftLeft_eq, whole]
  omega

theorem unpack_pack_normal {spec : Format} {m : Nat} {e : Int} (positive : 0 < m)
    (full : m.log2 + 1 = spec.mantissaBits)
    (least : 0 < e + spec.exponentBias + spec.mantissaBitsWithoutImplicit)
    (most : (e + spec.exponentBias + spec.mantissaBitsWithoutImplicit).toNat + 1
      < 2 ^ spec.exponentBits) :
    unpack spec (pack spec (.finite .positive m e positive)) = .finite .positive m e positive := by
  let b := (e + spec.exponentBias + spec.mantissaBitsWithoutImplicit).toNat
  have same : (BitVec.ofNat spec.exponentBits b).toNat = b := by
    rw [BitVec.toNat_ofNat, Nat.mod_eq_of_lt (by omega)]
  have notTop : BitVec.ofNat spec.exponentBits b ≠ -1#_ := by
    intro h
    have := congrArg BitVec.toNat h
    rw [same, BitVec.neg_one_eq_allOnes, BitVec.toNat_allOnes] at this
    omega
  have notLow : BitVec.ofNat spec.exponentBits b ≠ 0#_ := by
    intro h
    have := congrArg BitVec.toNat h
    rw [same, BitVec.toNat_zero] at this
    omega
  have bits : m.log2 = spec.mantissaBitsWithoutImplicit := by
    rw [Format.mantissaBits] at full
    omega
  have restored : (1#1 ++ BitVec.ofNat spec.mantissaBitsWithoutImplicit m).toNat = m := by
    have bounds := (Nat.log2_eq_iff (Nat.ne_of_gt positive)).mp bits
    exact implicitBit_append bounds.1 bounds.2
  have packed : pack spec (.finite .positive m e positive) =
      packComponents spec .positive (BitVec.ofNat _ b) (BitVec.ofNat _ m) := by
    rw [UnpackedFloat.pack, if_neg (by omega), if_pos full]
  rw [packed]
  simp only [UnpackedFloat.unpack, unpackExponent_packComponents, unpackMantissa_packComponents,
    unpackSign_packComponents, notTop, notLow, if_false, restored, same]
  have exponent : (b : Int) - (spec.exponentBias + spec.mantissaBitsWithoutImplicit) = e := by
    omega
  rw [exponent]
  rfl

theorem unpack_toFloat {w : UInt64} (hw : 0 < w.toNat) :
    w.toFloat.toModel.unpack = .finite .positive (mantissa w.toNat) (exponent w.toNat)
        (Nat.lt_of_lt_of_le (by decide) (mantissa_bounds hw).1) := by
  have rounded : UnpackedFloat.ofUInt64 Format.binary64 w =
      UnpackedFloat.round Format.binary64 .positive w.toNat 0 := by
    have positive : compare (w.toNat : Int) 0 = .gt := by
      rw [Int.compare_eq_gt]
      omega
    simp only [UnpackedFloat.ofUInt64, UnpackedFloat.ofNat, UnpackedFloat.ofInt,
      UnpackedFloat.normalize, positive]
    rfl
  have size : w.toNat.log2 < 64 := (Nat.log2_lt (Nat.ne_of_gt hw)).mpr w.toNat_lt
  have bounds := exponent_bounds w.toNat
  have full : (mantissa w.toNat).log2 + 1 = Format.binary64.mantissaBits := by
    have := mantissa_bounds hw
    rw [(Nat.log2_eq_iff (by omega)).mpr this]
    rfl
  have bias : Format.binary64.exponentBias = 1023 := by decide
  change unpack Format.binary64 (pack Format.binary64 (.ofUInt64 Format.binary64 w)) = _
  rw [rounded, round_word hw]
  apply unpack_pack_normal _ full
  · rw [bias]
    change 0 < exponent w.toNat + 1023 + 52
    omega
  · rw [bias]
    change (exponent w.toNat + 1023 + 52).toNat + 1 < 2 ^ 11
    omega

theorem unpack_toFloat_zero : (0 : UInt64).toFloat.toModel.unpack = .zero .positive := rfl

theorem lt_iff_compare (x y : Float) :
    x < y ↔ x.toModel.unpack.compare y.toModel.unpack = some .lt := by
  change decide ((x.toModel.unpack.compare y.toModel.unpack == some .lt) = true) = true ↔ _
  rw [decide_eq_true_iff, beq_iff_eq]

/-- The order of positive doubles is that of their exponents, then of their mantissas. -/
theorem compare_positive {m n : Nat} {e f : Int} {hm : 0 < m} {hn : 0 < n} :
    (UnpackedFloat.finite .positive m e hm).compare (.finite .positive n f hn) = some .lt ↔
      e < f ∨ e = f ∧ m < n := by
  simp only [UnpackedFloat.compare, Option.some.injEq]
  rw [Ordering.then_eq_lt, Int.compare_eq_lt, Int.compare_eq_eq, Nat.compare_eq_lt]

theorem toFloat_lt_of_le {low high : UInt64} {x : Float} (h : low ≤ high)
    (above : high.toFloat < x) : low.toFloat < x := by
  rw [lt_iff_compare] at above ⊢
  have order : low.toNat ≤ high.toNat := UInt64.le_iff_toNat_le.mp h
  by_cases same : low = high
  · rw [same]
    exact above
  have positive : 0 < high.toNat := by
    have : low.toNat ≠ high.toNat := fun e => same (UInt64.toNat_inj.mp e)
    omega
  rw [unpack_toFloat positive] at above
  by_cases zero : low = 0
  · rw [zero, unpack_toFloat_zero]
    cases hx : x.toModel.unpack with
    | infinity sign => cases sign <;> simp_all [UnpackedFloat.compare]
    | notANumber => simp_all [UnpackedFloat.compare]
    | zero sign => simp_all [UnpackedFloat.compare]
    | finite sign n f hn => cases sign <;> simp_all [UnpackedFloat.compare]
  · have lowPositive : 0 < low.toNat :=
      Nat.pos_of_ne_zero fun e => zero (UInt64.toNat_inj.mp e)
    rw [unpack_toFloat lowPositive]
    cases hx : x.toModel.unpack with
    | infinity sign => cases sign <;> simp_all [UnpackedFloat.compare]
    | notANumber => simp_all [UnpackedFloat.compare]
    | zero sign => simp_all [UnpackedFloat.compare]
    | finite sign n f hn =>
        rw [hx] at above
        cases sign with
        | negative => simp [UnpackedFloat.compare] at above
        | positive =>
            rw [compare_positive] at above ⊢
            have place := place_mono lowPositive order
            omega

end Walkthrough.Number.Rounding
