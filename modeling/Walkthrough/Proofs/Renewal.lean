import Walkthrough.Proofs.Playback

/-! New results forget the run before. What is shown of them is found from the results, from whether
they are to be played and from the lines that are folded or broken at: no scrubbed time, no pause,
no playback and no news of a clock that came before has any part in it. -/

namespace Walkthrough

variable {τ : Type}

/-- The view as far as it is about the run that is shown. -/
def View.run (v : View) : View :=
  { v with
    exerciseSlug := none
    code := ""
    language := .jikiScript
    hasEverPassed := false
    wasSuccessShown := false
    isSpotlightOn := false
    taskProgress := []
    completedTasks := []
    currentTask := none }

/-- The view of results of which no test is shown yet. -/
def View.ofResults (results : TestResults τ) (autoPlay : Bool) (breakpoints foldedLines : Lines) :
    View :=
  { code := ""
    language := .jikiScript
    tests := results.map .ofResult
    status := if results.allPassed then .success else .failure
    playsOnTestChange := autoPlay
    breakpoints
    foldedLines }

theorem View.run_withFrame (v : View) (frames : List Frame) (index : Nat) :
    (v.withFrame frames index).run = v.run.withFrame frames index := by
  unfold withFrame
  split <;> rfl

namespace Draft

def run (d : Draft τ) : Draft τ :=
  { d with view := d.view.run }

theorem run_modifyClock (d : Draft τ) (f : Clock τ → Clock τ) :
    (d.modifyClock f).run = d.run.modifyClock f := by
  have test : d.run.view.currentTest = d.view.currentTest := rfl
  unfold modifyClock
  rw [test]
  split <;> rfl

theorem run_goTo (d : Draft τ) (time : Micros) (lookup : FrameLookup) (force : Bool) :
    (d.goTo? time lookup force).map run = d.run.goTo? time lookup force := by
  have test : d.run.view.currentTest = d.view.currentTest := rfl
  have now : d.run.view.currentTime = d.view.currentTime := rfl
  unfold goTo?
  rw [test, now]
  cases d.view.currentTest with
  | none => rfl
  | some slug =>
      dsimp only
      split
      · rfl
      · let moved := { d.view with
          currentTime := time, savedTimes := d.view.savedTimes.insert slug time }
        have picked : View.pick { d.run.view with
            currentTime := time, savedTimes := d.run.view.savedTimes.insert slug time }
            d.run.frames time lookup = moved.pick d.frames time lookup := by
          cases lookup <;> rfl
        rw [picked]
        cases moved.pick d.frames time lookup with
        | none => rfl
        | some index =>
            exact congrArg (fun view => some { d with view }) (moved.run_withFrame d.frames index)

theorem run_goToIfAny (d : Draft τ) (time : Micros) (lookup : FrameLookup) (force : Bool) :
    ((d.goTo? time lookup force).getD d).run = (d.run.goTo? time lookup force).getD d.run := by
  rw [← run_goTo]
  cases d.goTo? time lookup force <;> rfl

theorem run_detach (d : Draft τ) : d.detach.run = d.run.detach :=
  congrArg (fun d : Draft τ => { d with pending := [] }) (run_modifyClock d _)

section Playback

variable [ClockTime τ]

/-- A test that was played to its end is taken to its start. -/
def rewound (d : Draft τ) : Draft τ :=
  if (d.view.currentTest.bind d.results.get?).any (·.clock.completed) then
    (d.goTo? 0 .exact false).getD d
  else d

def played (d : Draft τ) : Draft τ :=
  { d with view := { d.view with
    isPlaying := true, note := { d.view.note with visible := false } } }.modifyClock Clock.play

theorem startPlaying_eq (d : Draft τ) :
    d.startPlaying = if d.view.isPlaying then d else d.rewound.played :=
  rfl

theorem run_startPlaying (d : Draft τ) : d.startPlaying.run = d.run.startPlaying := by
  have playing : d.run.view.isPlaying = d.view.isPlaying := rfl
  have rewound : d.rewound.run = d.run.rewound := by
    have results : d.run.view.currentTest.bind d.run.results.get? =
        d.view.currentTest.bind d.results.get? := rfl
    unfold Draft.rewound
    rw [results]
    split
    · exact run_goToIfAny d 0 .exact false
    · rfl
  rw [startPlaying_eq, startPlaying_eq, playing, ← rewound]
  split
  · rfl
  · exact run_modifyClock _ Clock.play

/-- A test is turned to, at first without a frame, and its clock is listened to. -/
def turned (d : Draft τ) (slug : String) (time : Micros) : Draft τ :=
  let view := { d.view with currentTest := some slug, isPlaying := false }.withoutFrame
  { d with view }.modifyClock fun c => (c.listenMoves.listenEnd).seek time

theorem view_turned (d : Draft τ) (slug : String) (time : Micros) :
    (d.turned slug time).view =
      { d.view with currentTest := some slug, isPlaying := false }.withoutFrame :=
  view_modifyClock _ _

/-- The test is shown at a time, and played if tests are to be played. -/
def opened (d : Draft τ) (slug : String) (time : Micros) : Draft τ :=
  let begun := ((d.turned slug time).goTo? time .nearest true).getD (d.turned slug time)
  if begun.view.playsOnTestChange then begun.startPlaying else begun

theorem showTest?_eq (d : Draft τ) (slug : String) : d.showTest? slug =
    if d.view.currentTest = some slug then none
    else (d.results.get? slug).map fun r => d.detach.opened slug
      ((d.detach.view.savedTimes.get? slug).getD ((r.frames.head?.map (·.time)).getD 0)) := by
  unfold showTest?
  cases d.results.get? slug <;> rfl

theorem run_opened (d : Draft τ) (slug : String) (time : Micros) :
    (d.opened slug time).run = d.run.opened slug time := by
  have turned : (d.turned slug time).run = d.run.turned slug time := run_modifyClock _ _
  have begun := run_goToIfAny (d.turned slug time) time .nearest true
  rw [turned] at begun
  unfold opened
  dsimp only
  rw [← begun]
  split
  · next plays => exact (run_startPlaying _).trans (if_pos plays).symm
  · next waits => exact (if_neg waits).symm

theorem run_showTest (d : Draft τ) (slug : String) :
    (d.showTest? slug).map run = d.run.showTest? slug := by
  have test : d.run.view.currentTest = d.view.currentTest := rfl
  have results : d.run.results = d.results := rfl
  rw [showTest?_eq, showTest?_eq, test, results, ← run_detach]
  split
  · rfl
  · rw [Option.map_map]
    refine congrArg (fun f => (d.results.get? slug).map f) (funext fun r => ?_)
    exact run_opened _ _ _

/-- What is shown of results, whatever was shown before. -/
def ofResults (results : TestResults τ) (autoPlay : Bool) (breakpoints foldedLines : Lines) :
    Draft τ :=
  let fresh : Draft τ := { view := .ofResults results autoPlay breakpoints foldedLines, results }
  (results.head?.bind fun first => fresh.showTest? first.slug).getD fresh

theorem run_withResults (d : Draft τ) (results : TestResults τ) (autoPlay : Bool) :
    (d.withResults results autoPlay).run =
      ofResults results autoPlay d.view.breakpoints d.view.foldedLines := by
  unfold withResults ofResults
  extract_lets left passed _ _ view fresh fresh'
  have cleared : fresh.run = fresh' := by
    have kept : left.view = d.view := view_modifyClock _ _
    unfold fresh'
    rw [← kept]
    rfl
  cases results.head? with
  | none => exact cleared
  | some first =>
      dsimp only
      rw [Option.bind_some, ← cleared, ← run_showTest]
      cases fresh.showTest? first.slug <;> rfl

end Playback

end Draft

namespace Session

/-- The sessions show the same run, at the same place, and its clocks stand alike. -/
structure SameRun (s s' : Session τ) : Prop where
  tests : s'.view.tests = s.view.tests
  status : s'.view.status = s.view.status
  currentTest : s'.view.currentTest = s.view.currentTest
  currentTime : s'.view.currentTime = s.view.currentTime
  currentFrame : s'.view.currentFrame = s.view.currentFrame
  highlightedLine : s'.view.highlightedLine = s.view.highlightedLine
  isPlaying : s'.view.isPlaying = s.view.isPlaying
  playsOnTestChange : s'.view.playsOnTestChange = s.view.playsOnTestChange
  savedTimes : s'.view.savedTimes = s.view.savedTimes
  isCodeEdited : s'.view.isCodeEdited = s.view.isCodeEdited
  previousFrame : s'.view.previousFrame = s.view.previousFrame
  nextFrame : s'.view.nextFrame = s.view.nextFrame
  previousBreakpoint : s'.view.previousBreakpoint = s.view.previousBreakpoint
  nextBreakpoint : s'.view.nextBreakpoint = s.view.nextBreakpoint
  note : s'.view.note = s.view.note
  result : s'.currentResult? = s.currentResult?
  results : s'.results = s.results
  pending : s'.pending = s.pending

theorem sameRun_of_run {s s' : Session τ} (same : s'.draft.run = s.draft.run) : s.SameRun s' where
  tests := congrArg (·.view.tests) same
  status := congrArg (·.view.status) same
  currentTest := congrArg (·.view.currentTest) same
  currentTime := congrArg (·.view.currentTime) same
  currentFrame := congrArg (·.view.currentFrame) same
  highlightedLine := congrArg (·.view.highlightedLine) same
  isPlaying := congrArg (·.view.isPlaying) same
  playsOnTestChange := congrArg (·.view.playsOnTestChange) same
  savedTimes := congrArg (·.view.savedTimes) same
  isCodeEdited := congrArg (·.view.isCodeEdited) same
  previousFrame := congrArg (·.view.previousFrame) same
  nextFrame := congrArg (·.view.nextFrame) same
  previousBreakpoint := congrArg (·.view.previousBreakpoint) same
  nextBreakpoint := congrArg (·.view.nextBreakpoint) same
  note := congrArg (·.view.note) same
  result := congrArg (fun d => d.view.currentTest.bind d.results.get?) same
  results := congrArg (·.results) same
  pending := congrArg (·.pending) same

variable [ClockTime τ]

theorem run_setResults (s : Session τ) (results : TestResults τ) :
    (s.setResults results).draft.run =
      .ofResults results s.autoPlay s.view.breakpoints s.view.foldedLines := by
  unfold setResults
  rw [draft_commit]
  exact s.draft.run_withResults results s.autoPlay

/-- New results are shown in the same way in any two sessions that play new runs alike and have the
same lines folded and broken at: nothing else that was asked of them before makes a difference. -/
theorem results_forget_the_past {s s' : Session τ} (autoPlay : s'.autoPlay = s.autoPlay)
    (breakpoints : s'.view.breakpoints = s.view.breakpoints)
    (foldedLines : s'.view.foldedLines = s.view.foldedLines) (results : TestResults τ) :
    (s.setResults results).SameRun (s'.setResults results) := by
  refine sameRun_of_run ?_
  rw [run_setResults, run_setResults, autoPlay, breakpoints, foldedLines]

/-- A run that was paused and scrubbed leaves nothing behind for the next one. -/
theorem scrubbing_is_forgotten :
    let s : Session Float :=
      [.runCode 0, .setCurrentTime 1 .exact false, .pause].foldl perform
        (ofCode .jikiScript "set a to 1\nset b to 2")
    let s' : Session Float := ofCode .jikiScript "log 3"
    let results := s.runTests
    s.view.playsOnTestChange = false ∧ s.view.currentTime = 1 ∧
      (s'.setResults results).view.isPlaying = true ∧
      (s'.setResults results).view.currentTime = 0 ∧
      (s.setResults results).SameRun (s'.setResults results) := by
  intro s s' results
  have waits : s.view.playsOnTestChange = false := by decide +kernel
  have scrubbed : s.view.currentTime = 1 := by decide +kernel
  have plays : (s'.setResults results).view.isPlaying = true := by decide +kernel
  have start : (s'.setResults results).view.currentTime = 0 := by decide +kernel
  have autoPlay : s'.autoPlay = s.autoPlay := by decide +kernel
  have breakpoints : s'.view.breakpoints = s.view.breakpoints := by decide +kernel
  have foldedLines : s'.view.foldedLines = s.view.foldedLines := by decide +kernel
  exact ⟨waits, scrubbed, plays, start,
    results_forget_the_past autoPlay breakpoints foldedLines results⟩

end Session

end Walkthrough
