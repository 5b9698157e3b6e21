import Walkthrough.Exercise.TestResult
import Walkthrough.Proofs.Doubles

/-! What a clock does when it is moved. A clock that was made for a run and then moved in whatever
way stands neither before its start nor ends before it, and a long enough move takes it to its end,
although sums of doubles are rounded. -/

namespace Walkthrough

/-- What clocks rely on in the numbers that they count in. There may be something among them that is
no number; it is below nothing and above nothing. -/
class LawfulClockTime (τ : Type) [ClockTime τ] : Prop where
  le_trans : ∀ {x y z : τ}, x ≤ y → y ≤ z → x ≤ z
  le_self : ∀ {x y : τ}, x ≤ y → x ≤ x
  zero_le_zero : (0 : τ) ≤ 0
  le_max_left : ∀ {x y z : τ}, z ≤ x → z ≤ max x y
  le_max_right : ∀ {x y z : τ}, z ≤ y → z ≤ max x y
  le_min : ∀ {x y z : τ}, z ≤ x → z ≤ y → z ≤ min x y
  le_add_right : ∀ {x y : τ}, 0 ≤ x → 0 ≤ y → y ≤ x + y

section Float

open Number.Rounding

instance : LawfulClockTime Float where
  le_trans first second := Number.Rounding.le_trans first second
  le_self h := le_refl_iff.mpr ((le_iff _ _).mp h).1
  zero_le_zero := by decide
  le_max_left := by
    intro x y z h
    change z ≤ if x ≤ y || x.isNaN then y else x
    split
    · next larger =>
        rw [Bool.or_eq_true, decide_eq_true_iff] at larger
        rcases larger with le | none
        · exact Number.Rounding.le_trans h le
        · have number : x.isNaN = false := ((le_iff z x).mp h).2.1
          rw [number] at none
          cases none
    · exact h
  le_max_right := by
    intro x y z h
    change z ≤ if x ≤ y || x.isNaN then y else x
    split
    · exact h
    · next smaller =>
        rw [Bool.or_eq_true, decide_eq_true_iff, not_or, Bool.not_eq_true] at smaller
        have number : y.isNaN = false := ((le_iff z y).mp h).2.1
        have le : y ≤ x := (le_total_of smaller.2 number).resolve_left smaller.1
        exact Number.Rounding.le_trans h le
  le_min := by
    intro x y z hx hy
    change z ≤ if x ≤ y || y.isNaN then x else y
    split
    · exact hx
    · exact hy
  le_add_right hx hy := Number.Rounding.le_add_right hx hy

end Float

variable {τ : Type} [ClockTime τ]

namespace Clock

/-- The clock and its end are not before its start. -/
structure Sound (c : Clock τ) : Prop where
  duration : 0 ≤ c.duration
  current : 0 ≤ c.current

/-- The clock was made for a run and then moved, or listened to, in whatever way. -/
inductive Made : Clock τ → Prop
  | ofRun (animations : List (Animation τ)) (frames : List Frame) : Made (ofRun animations frames)
  | seek {c : Clock τ} (time : Micros) : Made c → Made (c.seek time)
  | play {c : Clock τ} : Made c → Made c.play
  | pause {c : Clock τ} : Made c → Made c.pause
  | advance {c : Clock τ} (elapsed : τ) : Made c → Made (c.advance elapsed).1
  | listenMoves {c : Clock τ} : Made c → Made c.listenMoves
  | listenEnd {c : Clock τ} : Made c → Made c.listenEnd
  | clearMoves {c : Clock τ} : Made c → Made c.clearMoves
  | clearEnd {c : Clock τ} : Made c → Made c.clearEnd

def reached (c : Clock τ) (elapsed : τ) : τ :=
  min (c.current + max elapsed 0) c.duration

/-- What a move forward does: nothing, if the clock stands still or has ended, and otherwise it ends
the clock if it takes it to its end. -/
theorem advance_cases (c : Clock τ) (elapsed : τ) :
    ((c.paused = true ∨ c.completed = true) ∧ c.advance elapsed = (c, [])) ∨
    (¬ c.duration ≤ c.reached elapsed ∧ c.advance elapsed =
      ({ c with current := c.reached elapsed },
        List.replicate c.moveListeners (.moved (c.reached elapsed)))) ∨
    (c.duration ≤ c.reached elapsed ∧ c.advance elapsed =
      ({ c with current := c.reached elapsed, completed := true, paused := true },
        List.replicate c.moveListeners (.moved (c.reached elapsed)) ++
          List.replicate c.endListeners (.completed (c.reached elapsed)))) := by
  unfold advance
  split
  · next still =>
      rw [Bool.or_eq_true] at still
      exact Or.inl ⟨still, rfl⟩
  · refine Or.inr ?_
    by_cases ended : c.duration ≤ c.reached elapsed
    · exact Or.inr ⟨ended, if_pos ended⟩
    · exact Or.inl ⟨ended, if_neg ended⟩

section Sound

variable [LawfulClockTime τ] {c : Clock τ}

open LawfulClockTime

theorem zero_le_span (animations : List (Animation τ)) (frames : List Frame) :
    0 ≤ span animations frames := by
  have folded (ends : List τ) : ∀ start : τ, 0 ≤ start → 0 ≤ ends.foldl max start := by
    induction ends with
    | nil => exact fun start h => h
    | cons finish rest ih => exact fun start h => ih _ (le_max_left h)
  exact le_max_left (folded _ 0 zero_le_zero)

theorem sound_ofRun (animations : List (Animation τ)) (frames : List Frame) :
    (ofRun animations frames).Sound :=
  ⟨zero_le_span animations frames, zero_le_zero⟩

theorem Sound.seek (h : c.Sound) (time : Micros) : (c.seek time).Sound :=
  ⟨h.duration, le_min (le_max_left zero_le_zero) h.duration⟩

theorem Sound.play (h : c.Sound) : c.play.Sound := by
  unfold Clock.play
  split
  · exact ⟨h.duration, zero_le_zero⟩
  · exact ⟨h.duration, h.current⟩

theorem Sound.zero_le_reached (h : c.Sound) (elapsed : τ) : 0 ≤ c.reached elapsed := by
  have forward : 0 ≤ max elapsed 0 := le_max_right zero_le_zero
  exact le_min (le_trans forward (le_add_right h.current forward)) h.duration

theorem Sound.advance (h : c.Sound) (elapsed : τ) : (c.advance elapsed).1.Sound := by
  have reached := h.zero_le_reached elapsed
  rcases c.advance_cases elapsed with ⟨-, ran⟩ | ⟨-, ran⟩ | ⟨-, ran⟩
  · rw [ran]
    exact h
  · rw [ran]
    exact ⟨h.duration, reached⟩
  · rw [ran]
    exact ⟨h.duration, reached⟩

theorem Made.sound (made : c.Made) : c.Sound := by
  induction made with
  | ofRun animations frames => exact sound_ofRun animations frames
  | seek time _ ih => exact ih.seek time
  | play _ ih => exact ih.play
  | advance elapsed _ ih => exact ih.advance elapsed
  | pause _ ih | listenMoves _ ih | listenEnd _ ih | clearMoves _ ih | clearEnd _ ih =>
      exact ⟨ih.duration, ih.current⟩

theorem Sound.duration_le_reached (h : c.Sound) {elapsed : τ} (long : c.duration ≤ elapsed) :
    c.duration ≤ c.reached elapsed := by
  have forward : 0 ≤ max elapsed 0 := le_max_right zero_le_zero
  have further : max elapsed 0 ≤ c.current + max elapsed 0 := le_add_right h.current forward
  exact le_min (le_trans (le_max_left long) further) (le_self long)

end Sound
end Clock

namespace TestResult

variable [LawfulClockTime τ]

theorem sound_ofProgram (code : String) (language : Language) (features : Features) :
    (ofProgram code language features : TestResult τ).clock.Sound :=
  Clock.sound_ofRun _ _

theorem sound_ofScenario (exercise : Exercise) (scenario : Scenario) (code : String)
    (language : Language) (features : Features) :
    (ofScenario exercise scenario code language features : TestResult τ).clock.Sound := by
  unfold ofScenario
  split
  · exact Clock.sound_ofRun _ _
  · exact Clock.sound_ofRun _ _
  · exact Clock.sound_ofRun _ _

end TestResult

end Walkthrough
