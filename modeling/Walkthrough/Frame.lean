import Walkthrough.Fault
import Walkthrough.Step

/-! Frames: the record of one step of a run, stamped with virtual time. Time is counted in
microseconds and read in milliseconds. -/

namespace Walkthrough

/-- Virtual time in microseconds. -/
abbrev Micros := UInt64

def microsPerMilli : UInt64 := 1000

def Micros.toMillis (t : Micros) : Float :=
  t.toFloat / microsPerMilli.toFloat

inductive Ending where
  | success (kind : String) (value : Option Snapshot) (step : Step)
  | failure (fault : Fault)

/-- One step: when, where, with which names in scope, and how it ended. -/
structure Frame where
  time : Micros
  line : Nat
  code : String
  bindings : Table Snapshot
  ending : Ending

namespace Frame

def isFailure (frame : Frame) : Bool :=
  match frame.ending with
  | .failure _ => true
  | .success .. => false

def fault? (frame : Frame) : Option Fault :=
  match frame.ending with
  | .failure fault => some fault
  | .success .. => none

def step (frame : Frame) : Step :=
  match frame.ending with
  | .success _ _ step => step
  | .failure fault => .failed fault.message

def description (frame : Frame) : String :=
  frame.step.describe

def statusName (frame : Frame) : String :=
  if frame.isFailure then "ERROR" else "SUCCESS"

def resultJson (frame : Frame) : Json :=
  match frame.ending with
  | .failure _ => .null
  | .success kind value _ =>
    Json.object [("type", .str kind), ("value", Json.optional Snapshot.toJson value)]

def faultJson (fault : Fault) : Json :=
  Json.object [("category", .str "RuntimeError"), ("type", .str fault.kind),
    ("message", .str fault.message), ("context", fault.context)]

def toJson (frame : Frame) : Json :=
  Json.object
    [("time", .nat frame.time.toNat), ("timeInMs", .float frame.time.toMillis),
     ("line", .nat frame.line), ("code", .str frame.code), ("status", .str frame.statusName),
     ("result", frame.resultJson), ("error", Json.optional faultJson frame.fault?),
     ("variables", Json.ofTable (frame.bindings.map Snapshot.toJson)),
     ("description", .str frame.description)]

end Frame

structure LogLine where
  time : Micros
  output : String
deriving DecidableEq, Repr

def LogLine.toJson (line : LogLine) : Json :=
  Json.object [("time", .nat line.time.toNat), ("timeInMs", .float line.time.toMillis),
    ("output", .str line.output)]

/-- A frame that is earlier than the one before it. -/
structure TimeReversal where
  index : Nat
  time : Micros
  previous : Micros
deriving DecidableEq, Repr

def TimeReversal.message (r : TimeReversal) : String :=
  "frame " ++ Number.digits r.index ++ " at time " ++ Number.digits r.time.toNat
    ++ " precedes the previous frame at " ++ Number.digits r.previous.toNat

/-- The first frame that is earlier than its predecessor; `index` is that of the first frame. -/
def firstReversal? (index : Nat) : List Frame → Option TimeReversal
  | earlier :: later :: rest =>
    if later.time < earlier.time then
      some { index := index + 1, time := later.time, previous := earlier.time }
    else firstReversal? (index + 1) (later :: rest)
  | _ => none

/-- Frames in the order of their times. -/
structure Trace where
  frames : List Frame

/-- Accepts exactly the frames whose times never go back. -/
def Trace.ofFrames (frames : List Frame) : Except TimeReversal Trace :=
  match firstReversal? 0 frames with
  | some reversal => .error reversal
  | none => .ok ⟨frames⟩

def hasFailure (frames : List Frame) : Bool :=
  frames.any Frame.isFailure

end Walkthrough
