import Mathlib.Algebra.Order.Group.Defs
import Mathlib.Algebra.Order.Group.MinMax
import Mathlib.Algebra.Order.Ring.Rat
import Mathlib.Algebra.Order.Round
import Walkthrough.Proofs.Clocks

/-! What a clock does over a whole run, with times that are exact numbers. It never leaves its span,
and has ended only where it stands at the end; each move takes it forward by what is asked for or by
what is left; and from the move that ended it until it is played again it is silent. -/

namespace Walkthrough

/-- Times that are exact numbers: they are ordered, and can be added and subtracted without loss.
How microseconds are counted in them, and what is rounded to what, is left open. -/
class ExactClockTime (τ : Type) extends ClockTime τ, AddCommGroup τ, LinearOrder τ,
  IsOrderedAddMonoid τ

instance {τ : Type} [ExactClockTime τ] : LawfulClockTime τ where
  le_trans := le_trans
  le_self _ := le_refl _
  zero_le_zero := le_refl _
  le_max_left := le_max_of_le_left
  le_max_right := le_max_of_le_right
  le_min := le_min
  le_add_right hx _ := le_add_of_nonneg_left hx

/-- Milliseconds as fractions. -/
instance : ExactClockTime ℚ where
  decidableLE := inferInstance
  decidableLT := inferInstance
  ofMicros m := m.toNat / microsPerMilli.toNat
  toMicros x := UInt64.ofNat (min (round (x * microsPerMilli.toNat)).toNat (2 ^ 64 - 1))
  roundMillis x := round x
  add_le_add_left _ _ := add_le_add_left

namespace Clock

inductive Operation (τ : Type) where
  | play
  | pause
  | seek (time : Micros)
  | advance (elapsed : τ)
  | listenMoves
  | listenEnd
  | clearMoves
  | clearEnd

variable {τ : Type}

section Runs

variable [ClockTime τ]

/-- One operation, and what the listeners are told at it. -/
def perform (c : Clock τ) : Operation τ → Clock τ × List (ClockEvent τ)
  | .play => (c.play, [])
  | .pause => (c.pause, [])
  | .seek time => (c.seek time, [])
  | .advance elapsed => c.advance elapsed
  | .listenMoves => (c.listenMoves, [])
  | .listenEnd => (c.listenEnd, [])
  | .clearMoves => (c.clearMoves, [])
  | .clearEnd => (c.clearEnd, [])

def run (c : Clock τ) : List (Operation τ) → Clock τ × List (ClockEvent τ)
  | [] => (c, [])
  | operation :: rest =>
    let (next, told) := c.perform operation
    let (last, later) := next.run rest
    (last, told ++ later)

theorem perform_paused {c : Clock τ} (paused : c.paused = true) {operation : Operation τ}
    (other : operation ≠ .play) :
    (c.perform operation).1.paused = true ∧ (c.perform operation).2 = [] := by
  cases operation with
  | play => exact absurd rfl other
  | advance elapsed =>
      have still : c.advance elapsed = (c, []) := if_pos (by simp [paused])
      change (c.advance elapsed).1.paused = true ∧ (c.advance elapsed).2 = []
      rw [still]
      exact ⟨paused, rfl⟩
  | pause => exact ⟨rfl, rfl⟩
  | seek | listenMoves | listenEnd | clearMoves | clearEnd => exact ⟨paused, rfl⟩

/-- A paused clock is silent until it is played. -/
theorem run_paused {c : Clock τ} (paused : c.paused = true) {operations : List (Operation τ)}
    (unplayed : .play ∉ operations) : (c.run operations).2 = [] := by
  induction operations generalizing c with
  | nil => rfl
  | cons operation rest ih =>
      rw [List.mem_cons, not_or] at unplayed
      obtain ⟨stays, silent⟩ := perform_paused paused (Ne.symm unplayed.1)
      have later := ih stays unplayed.2
      change (c.perform operation).2 ++ ((c.perform operation).1.run rest).2 = []
      rw [silent, later]
      rfl

end Runs

variable [ExactClockTime τ] {c : Clock τ}

/-- The clock stands within its span, and at the end of it if it has ended. -/
structure Bounded (c : Clock τ) : Prop where
  start : 0 ≤ c.current
  finish : c.current ≤ c.duration
  ended : c.completed = true → c.current = c.duration

/-- Where a clock should be after so much time: it goes on by the time that passed, or by what is
left if that is less, and never back. -/
def due (c : Clock τ) (elapsed : τ) : τ :=
  c.current + min (max elapsed 0) (c.duration - c.current)

theorem reached_eq_due (c : Clock τ) (elapsed : τ) : c.reached elapsed = c.due elapsed := by
  unfold reached due
  rw [← min_add_add_left, add_sub_cancel]

theorem due_le_duration (c : Clock τ) (elapsed : τ) : c.due elapsed ≤ c.duration := by
  rw [← reached_eq_due]
  exact min_le_right _ _

/-- A clock that does not run, or has ended, is not moved, and tells nothing. Any other goes to
where it should be; it tells that once to all who listen to its moves, and then, if that is its end,
tells its end to all who listen to that, and stands still. -/
structure Advances (c : Clock τ) (elapsed : τ) : Prop where
  still : c.paused = true ∨ c.completed = true → c.advance elapsed = (c, [])
  moves : c.paused = false → c.completed = false → c.due elapsed ≠ c.duration →
    c.advance elapsed = ({ c with current := c.due elapsed },
      List.replicate c.moveListeners (.moved (c.due elapsed)))
  ends : c.paused = false → c.completed = false → c.due elapsed = c.duration →
    c.advance elapsed = ({ c with current := c.duration, completed := true, paused := true },
      List.replicate c.moveListeners (.moved c.duration) ++
        List.replicate c.endListeners (.completed c.duration))

theorem advances (c : Clock τ) (elapsed : τ) : c.Advances elapsed := by
  constructor
  · intro still
    apply if_pos
    rwa [Bool.or_eq_true]
  · intro running going short
    rcases c.advance_cases elapsed with ⟨still, -⟩ | ⟨-, ran⟩ | ⟨ended, -⟩
    · rw [running, going] at still
      exact absurd still (by decide)
    · rw [ran, reached_eq_due]
    · rw [reached_eq_due] at ended
      exact absurd (le_antisymm (due_le_duration c elapsed) ended) short
  · intro running going full
    rcases c.advance_cases elapsed with ⟨still, -⟩ | ⟨unended, -⟩ | ⟨-, ran⟩
    · rw [running, going] at still
      exact absurd still (by decide)
    · rw [reached_eq_due] at unended
      exact absurd full.ge unended
    · rw [ran, reached_eq_due, full]

theorem bounded_ofRun (animations : List (Animation τ)) (frames : List Frame) :
    (ofRun animations frames).Bounded where
  start := le_refl 0
  finish := zero_le_span animations frames
  ended completed := by cases completed

theorem Bounded.seek (h : c.Bounded) (time : Micros) : (c.seek time).Bounded where
  start := le_min (le_max_left _ _) (h.start.trans h.finish)
  finish := min_le_right _ _
  ended completed := by
    have late := ((Bool.and_eq_true _ _).mp completed).2
    exact le_antisymm (min_le_right _ _) (of_decide_eq_true late)

theorem Bounded.play (h : c.Bounded) : c.play.Bounded := by
  unfold Clock.play
  split
  · exact ⟨le_refl 0, h.start.trans h.finish, nofun⟩
  · exact ⟨h.start, h.finish, h.ended⟩

theorem Bounded.advance (h : c.Bounded) (elapsed : τ) : (c.advance elapsed).1.Bounded := by
  have forward : 0 ≤ min (max elapsed 0) (c.duration - c.current) :=
    le_min (le_max_right _ _) (sub_nonneg.mpr h.finish)
  by_cases still : c.paused = true ∨ c.completed = true
  · rw [(c.advances elapsed).still still]
    exact h
  · rw [not_or, Bool.not_eq_true, Bool.not_eq_true] at still
    obtain ⟨running, going⟩ := still
    by_cases full : c.due elapsed = c.duration
    · rw [(c.advances elapsed).ends running going full]
      exact ⟨h.start.trans h.finish, le_refl _, fun _ => rfl⟩
    · rw [(c.advances elapsed).moves running going full]
      refine ⟨add_nonneg h.start forward, due_le_duration c elapsed, ?_⟩
      intro completed
      rw [going] at completed
      cases completed

theorem Bounded.perform (h : c.Bounded) (operation : Operation τ) :
    (c.perform operation).1.Bounded := by
  cases operation with
  | play => exact h.play
  | seek time => exact h.seek time
  | advance elapsed => exact h.advance elapsed
  | pause | listenMoves | listenEnd | clearMoves | clearEnd => exact ⟨h.start, h.finish, h.ended⟩

theorem Bounded.run (h : c.Bounded) (operations : List (Operation τ)) :
    (c.run operations).1.Bounded := by
  induction operations generalizing c with
  | nil => exact h
  | cons operation rest ih => exact ih (h.perform operation)

theorem paused_of_ended {elapsed : τ} (going : c.completed = false)
    (ended : (c.advance elapsed).1.completed = true) : (c.advance elapsed).1.paused = true := by
  rcases c.advance_cases elapsed with ⟨-, ran⟩ | ⟨-, ran⟩ | ⟨-, ran⟩
  · rw [ran, going] at ended
    cases ended
  · rw [ran] at ended
    exact absurd (going.symm.trans ended) (by decide)
  · rw [ran]

end Clock

/-- A clock is a sound machine. Made for any run and then played, paused, sought, moved and listened
to in any order, it stands within its span, and at the end of it if it has ended. Moving it does
nothing while it stands still or has ended, and otherwise takes it forward by the time that passed
or by what is left, is told once, and ends it if nothing is left. Once a move has ended it, nothing
is told before the clock is played again. -/
theorem clock_is_sound {τ : Type} [ExactClockTime τ] (animations : List (Animation τ))
    (frames : List Frame) (operations : List (Clock.Operation τ)) :
    let c := ((Clock.ofRun animations frames).run operations).1
    (0 ≤ c.current ∧ c.current ≤ c.duration) ∧
    (c.completed = true → c.current = c.duration) ∧
    (∀ elapsed, c.Advances elapsed) ∧
    ∀ elapsed later, c.completed = false → (c.advance elapsed).1.completed = true →
      .play ∉ later → ((c.advance elapsed).1.run later).2 = [] := by
  intro c
  have bounded : c.Bounded := (Clock.bounded_ofRun animations frames).run operations
  refine ⟨⟨bounded.start, bounded.finish⟩, bounded.ended, c.advances, ?_⟩
  intro elapsed later going ended unplayed
  exact Clock.run_paused (Clock.paused_of_ended going ended) unplayed

/-- A clock of fifty milliseconds is moved twice by thirty, and told its end. It may then be sought
back and moved again, and says no more. -/
theorem ended_clock_is_silent :
    let c : Clock ℚ := ((Clock.ofRun [⟨".character", 0, 50, .null⟩] []).run
      [.listenMoves, .listenEnd, .play, .advance 30]).1
    c.current = 30 ∧ (c.advance 30).2 = [.moved 50, .completed 50] ∧
      ((c.advance 30).1.run [.seek 10000, .advance 5, .pause]).2 = [] := by
  intro c
  have sound := @clock_is_sound ℚ _ [⟨".character", 0, 50, .null⟩] []
    [.listenMoves, .listenEnd, .play, .advance 30]
  have current : c.current = 30 := by decide +kernel
  have duration : c.duration = 50 := by decide +kernel
  have going : c.completed = false := by decide +kernel
  have last : c.due 30 = c.duration := by decide +kernel
  have ran := (sound.2.2.1 30).ends (by decide +kernel) going last
  refine ⟨current, ?_, sound.2.2.2 30 _ going (by rw [ran]) (by simp)⟩
  have heard : c.moveListeners = 1 ∧ c.endListeners = 1 := by decide +kernel
  rw [ran, heard.1, heard.2, duration]
  rfl

end Walkthrough
