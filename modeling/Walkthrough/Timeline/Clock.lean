import Walkthrough.Timeline.Animation

/-! The playback clock of a run. It lasts until the last animation has ended and the last frame is
reached, stands still while paused, and tells its listeners when it moves and when it ends. -/

namespace Walkthrough

/-- What a clock tells a listener, with its time. -/
inductive ClockEvent (τ : Type) where
  | moved (time : τ)
  | completed (time : τ)

structure Clock (τ : Type) where
  animations : List (Animation τ) := []
  duration : τ
  current : τ
  paused : Bool := true
  completed : Bool := false
  /-- How many listeners hear of every move. -/
  moveListeners : Nat := 0
  /-- How many listeners hear of the end. -/
  endListeners : Nat := 0

namespace Clock

variable {τ : Type} [ClockTime τ]

/-- The later of the end of the last animation and the last frame. -/
def span (animations : List (Animation τ)) (frames : List Frame) : τ :=
  let animated := (animations.map (·.finish)).foldl max 0
  let recorded := (frames.getLast?.map fun f => ClockTime.ofMicros f.time).getD 0
  max animated recorded

def ofRun (animations : List (Animation τ)) (frames : List Frame) : Clock τ :=
  { animations, duration := span animations frames, current := 0 }

/-- The duration on the frame clock. -/
def durationMicros (c : Clock τ) : Micros :=
  ClockTime.toMicros c.duration

/-- Jumps to the whole millisecond nearest to a time, or to the end if that is earlier. Nobody is
told. A clock without duration is never completed by a jump. -/
def seek (c : Clock τ) (time : Micros) : Clock τ :=
  let target := min (max 0 (ClockTime.roundMillis (ClockTime.ofMicros time : τ))) c.duration
  { c with current := target, completed := 0 < c.duration && c.duration ≤ target }

/-- Lets the clock run, from its start again if it had ended. -/
def play (c : Clock τ) : Clock τ :=
  if c.completed then { c with current := 0, completed := false, paused := false }
  else { c with paused := false }

def pause (c : Clock τ) : Clock τ :=
  { c with paused := true }

/-- Moves a running clock forward, at most to its end, and gives what the listeners are told: of the
move first, then of the end if it was reached. -/
def advance (c : Clock τ) (elapsed : τ) : Clock τ × List (ClockEvent τ) :=
  if c.paused || c.completed then (c, [])
  else
    let now := min (c.current + max elapsed 0) c.duration
    let moves := List.replicate c.moveListeners (ClockEvent.moved now)
    if c.duration ≤ now then
      ({ c with current := now, completed := true, paused := true },
        moves ++ List.replicate c.endListeners (.completed now))
    else ({ c with current := now }, moves)

def listenMoves (c : Clock τ) : Clock τ :=
  { c with moveListeners := c.moveListeners + 1 }

def listenEnd (c : Clock τ) : Clock τ :=
  { c with endListeners := c.endListeners + 1 }

def clearMoves (c : Clock τ) : Clock τ :=
  { c with moveListeners := 0 }

def clearEnd (c : Clock τ) : Clock τ :=
  { c with endListeners := 0 }

def toJson (c : Clock Float) : Json :=
  Json.object
    [("current_ms", .float c.current), ("duration_ms", .float c.duration),
     ("duration", .nat c.durationMicros.toNat), ("paused", .bool c.paused),
     ("completed", .bool c.completed)]

end Clock
end Walkthrough
