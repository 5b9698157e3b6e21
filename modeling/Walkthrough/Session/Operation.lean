import Walkthrough.Session.Basic

/-! The operations of a session, one function each, and one type that names them all. -/

namespace Walkthrough
namespace Session

variable {τ : Type}

/-- Replaces the code; the same code again is no edit. -/
def setCode (s : Session τ) (code : String) : Session τ :=
  s.updateView fun v => if v.code = code then v else { v with code, isCodeEdited := true }

/-- Changes the line sets, which changes where one can go but never the current frame. -/
def updateLines (s : Session τ) (f : View → View) : Session τ :=
  s.updateView fun v => (f v).withNavigation s.frames

def setBreakpoints (s : Session τ) (lines : Lines) : Session τ :=
  s.updateLines fun v => { v with breakpoints := lines }

def toggleBreakpoint (s : Session τ) (line : Nat) : Session τ :=
  s.updateLines fun v => { v with breakpoints := v.breakpoints.toggle line }

def setFoldedLines (s : Session τ) (lines : Lines) : Session τ :=
  s.updateLines fun v => { v with foldedLines := lines }

def toggleFold (s : Session τ) (line : Nat) : Session τ :=
  s.updateLines fun v => { v with foldedLines := v.foldedLines.toggle line }

/-- Turns to a task; an unknown id changes nothing. -/
def setCurrentTask (s : Session τ) (id : String) : Session τ :=
  match s.tasks.bind (·.setCurrent? id) with
  | some book =>
    let s := { s with tasks := some book }
    s.commit (s.syncTasks s.draft)
  | none => s

variable [ClockTime τ]

/-- Shows results that were made elsewhere. -/
def setResults (s : Session τ) (results : TestResults τ) : Session τ :=
  s.commit (s.draft.withResults results s.autoPlay)

/-- What the code does: in every scenario of the exercise, or by itself without one. -/
def runTests (s : Session τ) : TestResults τ :=
  match s.exercise with
  | some exercise => TestResult.ofExercise exercise s.view.code s.view.language s.features
  | none => [.ofProgram s.view.code s.view.language s.features]

/-- Works results into the tasks, and gives the ids of those that became complete. -/
def updateTasks (s : Session τ) (results : TestResults τ) (now : Int) : Session τ × List String :=
  match s.exercise, s.tasks with
  | some exercise, some book =>
    let (book, ids) := book.update exercise results.hasPassed now
    ({ s with tasks := some book }, ids)
  | _, _ => (s, [])

/-- Runs the code and shows the results; a sound tells of every task that became complete. -/
def runCode (s : Session τ) (now : Int) : Session τ :=
  let s := s.updateView fun v => { v with status := .running }
  let results := s.runTests
  let (s, ids) := s.updateTasks results now
  let s := s.commit (s.syncTasks (s.draft.withResults results s.autoPlay))
  s.signal (ids.map fun _ => .taskCompleted)

def setCurrentTest (s : Session τ) (slug : String) : Session τ :=
  match s.draft.showTest? slug with
  | some d => s.commit d
  | none => s

/-- Goes to a time of the test that is shown, its clock too. -/
def setCurrentTime (s : Session τ) (time : Micros) (lookup : FrameLookup) (force : Bool) :
    Session τ :=
  match s.draft.goTo? time lookup force with
  | some d => s.commit (d.modifyClock (·.seek time))
  | none => s

def setPlaying (s : Session τ) (playing : Bool) : Session τ :=
  s.commit (if playing then s.draft.startPlaying else s.draft.stopPlaying)

def play (s : Session τ) : Session τ :=
  if s.view.currentTest.isNone then s else s.setPlaying true

def pause (s : Session τ) : Session τ :=
  if s.view.currentTest.isNone then s else s.commit s.draft.pause

/-- The end of playback; the first time that all tests have passed, it is celebrated. -/
def completePlayback (s : Session τ) : Session τ :=
  let d := s.draft.stopPlaying
  if d.view.allTestsPassed && !d.view.wasSuccessShown then
    let view := { d.view with wasSuccessShown := true, isSpotlightOn := false }
    (s.commit { d with view }).signal [.exerciseSolved]
  else s.commit d

/-- Acts on what a clock has told. -/
def handle (s : Session τ) : ClockEvent τ → Session τ
  | .moved time =>
    match s.draft.goTo? (ClockTime.toMicros time) .exact false with
    | some d => s.commit d
    | none => s
  | .completed _ => s.completePlayback

/-- Moves the clock of the test that is shown, and keeps what it tells. -/
def advanceClock (s : Session τ) (elapsed : τ) : Session τ :=
  match s.currentResult? with
  | some result =>
    let (clock, events) := result.clock.advance (elapsed * s.speed)
    { s with
      results := s.results.modifyClock result.slug fun _ => clock
      pending := s.pending ++ events }
  | none => s

/-- Lets time pass, in milliseconds, and acts on what the clock tells. -/
def tick (s : Session τ) (elapsed : τ) : Session τ :=
  let s := s.advanceClock elapsed
  s.pending.foldl handle { s with pending := [] }

/-- Goes to a frame by its time. -/
def goToFrame (s : Session τ) (index : Option Nat) : Session τ :=
  match index.bind fun i => s.frames[i]? with
  | some frame => s.setCurrentTime frame.time .exact false
  | none => s

def goToNextFrame (s : Session τ) : Session τ :=
  s.goToFrame s.view.nextFrame

def goToPreviousFrame (s : Session τ) : Session τ :=
  s.goToFrame s.view.previousFrame

def goToNextBreakpoint (s : Session τ) : Session τ :=
  s.goToFrame s.view.nextBreakpoint

def goToPreviousBreakpoint (s : Session τ) : Session τ :=
  s.goToFrame s.view.previousBreakpoint

inductive Operation (τ : Type) where
  | setCode (code : String)
  | runCode (now : Int)
  | setResults (results : TestResults τ)
  | setCurrentTest (slug : String)
  | setCurrentTime (time : Micros) (lookup : FrameLookup) (force : Bool)
  | setPlaying (playing : Bool)
  | play
  | pause
  | tick (elapsed : τ)
  | setBreakpoints (lines : Lines)
  | toggleBreakpoint (line : Nat)
  | setFoldedLines (lines : Lines)
  | toggleFold (line : Nat)
  | goToNextFrame
  | goToPreviousFrame
  | goToNextBreakpoint
  | goToPreviousBreakpoint
  | setCurrentTask (id : String)

def perform (s : Session τ) : Operation τ → Session τ
  | .setCode code => s.setCode code
  | .runCode now => s.runCode now
  | .setResults results => s.setResults results
  | .setCurrentTest slug => s.setCurrentTest slug
  | .setCurrentTime time lookup force => s.setCurrentTime time lookup force
  | .setPlaying playing => s.setPlaying playing
  | .play => s.play
  | .pause => s.pause
  | .tick elapsed => s.tick elapsed
  | .setBreakpoints lines => s.setBreakpoints lines
  | .toggleBreakpoint line => s.toggleBreakpoint line
  | .setFoldedLines lines => s.setFoldedLines lines
  | .toggleFold line => s.toggleFold line
  | .goToNextFrame => s.goToNextFrame
  | .goToPreviousFrame => s.goToPreviousFrame
  | .goToNextBreakpoint => s.goToNextBreakpoint
  | .goToPreviousBreakpoint => s.goToPreviousBreakpoint
  | .setCurrentTask id => s.setCurrentTask id

end Session
end Walkthrough
