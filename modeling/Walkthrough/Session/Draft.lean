import Walkthrough.Session.View

/-! A draft: the next view of a session in the making, with the results whose clocks it moves. The
test that is shown is the only one whose clock is listened to. -/

namespace Walkthrough

structure Draft (τ : Type) where
  view : View
  results : TestResults τ
  /-- What clocks have told and nobody has acted on yet. -/
  pending : List (ClockEvent τ) := []

namespace Draft

variable {τ : Type}

def frames (d : Draft τ) : List Frame :=
  match d.view.currentTest.bind d.results.get? with
  | some result => result.frames
  | none => []

/-- Changes the clock of the test that is shown. -/
def modifyClock (d : Draft τ) (f : Clock τ → Clock τ) : Draft τ :=
  match d.view.currentTest with
  | some slug => { d with results := d.results.modifyClock slug f }
  | none => d

/-- Goes to a time of the test that is shown; `none` if no test is shown, or the time is the current
one and that is not forced. A frame that the time does not pick stays. -/
def goTo? (d : Draft τ) (time : Micros) (lookup : FrameLookup) (force : Bool) : Option (Draft τ) :=
  match d.view.currentTest with
  | none => none
  | some slug =>
    if d.view.currentTime = time && !force then none
    else
      let view := { d.view with
        currentTime := time, savedTimes := d.view.savedTimes.insert slug time }
      match view.pick d.frames time lookup with
      | some index => some { d with view := view.withFrame d.frames index }
      | none => some { d with view }

def stopPlaying (d : Draft τ) : Draft τ :=
  { d with view := { d.view with isPlaying := false } }.modifyClock Clock.pause

variable [ClockTime τ]

/-- Stops listening to the clock of the test that is shown. -/
def detach (d : Draft τ) : Draft τ :=
  { d.modifyClock fun c => c.clearMoves.clearEnd.pause with pending := [] }

/-- Starts playing; a test that was played to its end starts again. -/
def startPlaying (d : Draft τ) : Draft τ :=
  if d.view.isPlaying then d
  else
    let isOver := (d.view.currentTest.bind d.results.get?).any (·.clock.completed)
    let d := if isOver then (d.goTo? 0 .exact false).getD d else d
    let note := { d.view.note with visible := false }
    { d with view := { d.view with isPlaying := true, note } }.modifyClock Clock.play

/-- Shows another test at the time where it was left, or else at its first frame, and listens to its
clock. `none` if the test is shown already or there is no such test. -/
def showTest? (d : Draft τ) (slug : String) : Option (Draft τ) :=
  if d.view.currentTest = some slug then none
  else match d.results.get? slug with
    | none => none
    | some result =>
      let d := d.detach
      let view := { d.view with currentTest := some slug, isPlaying := false }.withoutFrame
      let start := (result.frames.head?.map (·.time)).getD 0
      let time := (view.savedTimes.get? slug).getD start
      let d := { d with view }.modifyClock fun c => (c.listenMoves.listenEnd).seek time
      let d := (d.goTo? time .nearest true).getD d
      some (if d.view.playsOnTestChange then d.startPlaying else d)

/-- Shows new results, the first test to begin with. Nothing of the run before is kept but that
there ever was one in which every test passed. -/
def withResults (d : Draft τ) (results : TestResults τ) (autoPlay : Bool) : Draft τ :=
  let d := d.detach
  let allPassed := results.allPassed
  let view := { d.view with
    tests := results.map .ofResult
    status := if allPassed then .success else .failure
    currentTest := none }.withoutFrame
  let view := { view with
    savedTimes := Table.empty
    isCodeEdited := false
    playsOnTestChange := autoPlay
    isPlaying := false
    isSpotlightOn := allPassed && !d.view.hasEverPassed
    hasEverPassed := d.view.hasEverPassed || allPassed }
  let d : Draft τ := { d with view, results }
  match results.head? with
  | some first => (d.showTest? first.slug).getD d
  | none => d

/-- Pauses for the learner: tests shown later stay paused, and the time becomes that of the nearest
frame. -/
def pause (d : Draft τ) : Draft τ :=
  let d := d.stopPlaying
  let d := { d with view := { d.view with playsOnTestChange := false } }
  let nearest := Navigation.nearest? d.frames d.view.currentTime d.view.foldedLines
  let d := match nearest.bind fun i => d.frames[i]? with
    | some frame => ((d.goTo? frame.time .exact true).getD d).modifyClock (·.seek frame.time)
    | none => d
  let note := { d.view.note with visible := d.view.currentFrame.isSome }
  { d with view := { d.view with note } }

end Draft
end Walkthrough
