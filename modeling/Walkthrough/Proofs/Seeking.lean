import Mathlib.Tactic.Linarith
import Mathlib.Tactic.NormNum
import Walkthrough.Proofs.ClockRuns
import Walkthrough.Proofs.Renewal
import Walkthrough.Proofs.Viewpoints

/-! Seeking, and playing on from there. A clock goes to the whole millisecond nearest to the time
that was asked for, so it has ended where that millisecond is not before its end, although the time
itself may be. Wherever it has not ended, playing goes on from the time that was sought; where it
has, playing starts again. -/

namespace Walkthrough

namespace Clock

/-- The millisecond nearest to the time is not before the end of the clock, which has a duration. -/
def EndsAt (c : Clock ℚ) (time : Micros) : Prop :=
  0 < c.duration ∧ c.duration ≤ round ((time.toNat : ℚ) / 1000)

variable {c : Clock ℚ} {time : Micros}

/-- Rounding moves a time by half a millisecond at most, so a jump that ends a clock early goes to
its last half millisecond. -/
theorem EndsAt.late (ends : c.EndsAt time) : c.durationMicros.toNat ≤ time.toNat + 500 := by
  have counted : (c.durationMicros.toNat : ℤ) ≤ max 0 (round (c.duration * 1000)) := by
    have word : c.durationMicros =
        UInt64.ofNat (min (round (c.duration * 1000)).toNat (2 ^ 64 - 1)) :=
      rfl
    rw [word, UInt64.toNat_ofNat']
    omega
  have last : c.duration * 1000 ≤ time.toNat + 500 := by
    have rounded := round_le_add_half ((time.toNat : ℚ) / 1000)
    have ended := ends.2
    linarith
  have nearest : round (c.duration * 1000) < (time.toNat : ℤ) + 500 + 1 := by
    rw [← @Int.cast_lt ℚ]
    push_cast
    have rounded := round_le_add_half (c.duration * 1000)
    linarith
  omega

end Clock

namespace Draft

variable {d : Draft ℚ} {c : Clock ℚ}

end Draft

namespace Session

variable {s : Session ℚ} {c : Clock ℚ} {time : Micros} {force : Bool}

end Session

end Walkthrough
