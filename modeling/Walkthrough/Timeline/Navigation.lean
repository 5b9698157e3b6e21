import Walkthrough.Frame
import Walkthrough.Timeline.Lines

/-! Moving between the frames of a finished run. Every search gives the index of a frame. Frames on
folded lines are passed over; the frame that a search starts from may itself be folded. -/

namespace Walkthrough.Navigation

/-- The index of the last item that a test holds of. -/
def lastIndex? {α : Type} (p : α → Bool) : List α → Option Nat
  | [] => none
  | a :: rest =>
    match lastIndex? p rest with
    | some i => some (i + 1)
    | none => if p a then some 0 else none

/-- The frame's line is not folded away. -/
def isVisible (folded : Lines) (frame : Frame) : Bool :=
  !folded.contains frame.line

def timeAt (frames : List Frame) (i : Nat) : Micros :=
  (frames[i]?.map (·.time)).getD 0

/-- Of two frames around a time the nearer one, the earlier if they are equally near. -/
def nearer (frames : List Frame) (time : Micros) (before after : Nat) : Nat :=
  if time - timeAt frames before ≤ timeAt frames after - time then before else after

/-- The visible frame that is nearest to a time. Time 0 is that of the first frame and a time after
the last frame that of the last, folded or not; so is a time that no visible frame follows. -/
def nearest? (frames : List Frame) (time : Micros) (folded : Lines) : Option Nat :=
  match frames.getLast? with
  | none => none
  | some last =>
    let final := frames.length - 1
    if time = 0 then some 0
    else if last.time < time then some final
    else match frames.findIdx? fun f => time ≤ f.time && isVisible folded f with
      | none => some final
      | some after =>
        match lastIndex? (isVisible folded) (frames.take after) with
        | some before => some (nearer frames time before after)
        | none => some after

/-- The first frame after a time that a test holds of. -/
def firstAfter? (frames : List Frame) (time : Micros) (p : Frame → Bool) : Option Nat :=
  frames.findIdx? fun f => time < f.time && p f

/-- The last frame before a time that a test holds of. -/
def lastBefore? (frames : List Frame) (time : Micros) (p : Frame → Bool) : Option Nat :=
  lastIndex? (fun f => f.time < time && p f) frames

def next? (frames : List Frame) (current : Frame) (folded : Lines) : Option Nat :=
  firstAfter? frames current.time (isVisible folded)

def previous? (frames : List Frame) (current : Frame) (folded : Lines) : Option Nat :=
  lastBefore? frames current.time (isVisible folded)

/-- A visible frame on a line with a breakpoint. -/
def isStop (breakpoints folded : Lines) (frame : Frame) : Bool :=
  breakpoints.contains frame.line && isVisible folded frame

/-- The next visible frame on a line with a breakpoint; none without a current frame. -/
def nextBreakpoint? (frames : List Frame) (current : Option Frame) (breakpoints folded : Lines) :
    Option Nat :=
  current.bind fun frame => firstAfter? frames frame.time (isStop breakpoints folded)

/-- The previous visible frame on a line with a breakpoint; none without a current frame. -/
def previousBreakpoint? (frames : List Frame) (current : Option Frame)
    (breakpoints folded : Lines) : Option Nat :=
  current.bind fun frame => lastBefore? frames frame.time (isStop breakpoints folded)

end Walkthrough.Navigation
