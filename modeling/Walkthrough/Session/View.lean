import Walkthrough.Exercise.TaskBook
import Walkthrough.Exercise.TestResult
import Walkthrough.Timeline.Navigation

/-! What a screen has to know of a session: the code, the tests of the last run, and the place in
the test that is shown. Places are indices of frames. -/

namespace Walkthrough

inductive RunStatus where
  | idle
  | running
  | success
  | failure
deriving DecidableEq, Repr

def RunStatus.name : RunStatus → String
  | .idle => "Idle"
  | .running => "Running"
  | .success => "Success"
  | .failure => "Failure"

/-- How a time picks its frame: the nearest visible one, or only one of exactly that time. -/
inductive FrameLookup where
  | nearest
  | exact
deriving DecidableEq, Repr

structure TestSummary where
  slug : String
  name : String
  passed : Bool
  frameCount : Nat
deriving DecidableEq, Repr

def TestSummary.ofResult {τ : Type} (r : TestResult τ) : TestSummary :=
  { slug := r.slug, name := r.name, passed := r.passed, frameCount := r.frames.length }

structure Note where
  visible : Bool := false
  line : Nat := 0
  isFailure : Bool := false
  html : String := ""
deriving DecidableEq, Repr

structure View where
  exerciseSlug : Option String := none
  code : String
  language : Language
  status : RunStatus := .idle
  tests : List TestSummary := []
  currentTest : Option String := none
  currentTime : Micros := 0
  currentFrame : Option Nat := none
  /-- The line of the current frame, 0 without one. -/
  highlightedLine : Nat := 0
  isPlaying : Bool := false
  playsOnTestChange : Bool := true
  /-- Where each test was left. -/
  savedTimes : Table Micros := Table.empty
  isCodeEdited : Bool := false
  hasEverPassed : Bool := false
  wasSuccessShown : Bool := false
  isSpotlightOn : Bool := false
  breakpoints : Lines := []
  foldedLines : Lines := []
  previousFrame : Option Nat := none
  nextFrame : Option Nat := none
  previousBreakpoint : Option Nat := none
  nextBreakpoint : Option Nat := none
  note : Note := {}
  taskProgress : List TaskProgress := []
  completedTasks : List String := []
  currentTask : Option String := none
deriving DecidableEq

namespace View

/-- There is a test, and every test passed. -/
def allTestsPassed (v : View) : Bool :=
  !v.tests.isEmpty && v.tests.all (·.passed)

/-- Finds the frames that can be gone to from the current one. -/
def withNavigation (v : View) (frames : List Frame) : View :=
  let current := v.currentFrame.bind fun i => frames[i]?
  { v with
    previousFrame := current.bind fun f => Navigation.previous? frames f v.foldedLines
    nextFrame := current.bind fun f => Navigation.next? frames f v.foldedLines
    previousBreakpoint :=
      Navigation.previousBreakpoint? frames current v.breakpoints v.foldedLines
    nextBreakpoint := Navigation.nextBreakpoint? frames current v.breakpoints v.foldedLines }

/-- Shows a frame; without such a frame nothing changes. -/
def withFrame (v : View) (frames : List Frame) (index : Nat) : View :=
  match frames[index]? with
  | none => v
  | some frame =>
    let note := { v.note with
      line := frame.line, isFailure := frame.isFailure, html := frame.description }
    { v with currentFrame := some index, highlightedLine := frame.line, note }.withNavigation frames

def withoutFrame (v : View) : View :=
  { v with
    currentTime := 0
    currentFrame := none
    highlightedLine := 0
    previousFrame := none
    nextFrame := none
    previousBreakpoint := none
    nextBreakpoint := none
    note := {} }

def pick (v : View) (frames : List Frame) (time : Micros) : FrameLookup → Option Nat
  | .nearest => Navigation.nearest? frames time v.foldedLines
  | .exact => frames.findIdx? fun f => f.time == time

def withTasks (v : View) (exercise : Exercise) (book : TaskBook) : View :=
  { v with
    taskProgress := exercise.tasks.filterMap fun task => book.progress? task.id
    completedTasks := book.completedIds
    currentTask := book.current }

end View
end Walkthrough
