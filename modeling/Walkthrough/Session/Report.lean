import Walkthrough.Session.Operation

/-! What can be seen of a session from outside, as data. -/

namespace Walkthrough

def TestSummary.toJson (t : TestSummary) : Json :=
  .arr [.str t.slug, .str t.name, .str (if t.passed then "pass" else "fail"), .nat t.frameCount]

def Note.toJson (n : Note) : Json :=
  Json.object
    [("visible", .bool n.visible), ("line", .nat n.line),
     ("status", .str (if n.isFailure then "ERROR" else "SUCCESS")), ("html", .str n.html)]

/-- Progress without the time of completion, of which only the presence is told. -/
def TaskProgress.toJson (p : TaskProgress) : Json :=
  Json.object
    [("task_id", .str p.taskId), ("status", .str p.status.name), ("passed", Json.strings p.passed),
     ("total", .nat p.total), ("has_completed_at", .bool p.completedAt.isSome)]

def View.entries (v : View) : List (String × Json) :=
  [("exercise_slug", Json.optional .str v.exerciseSlug), ("code", .str v.code),
   ("language", .str v.language.name), ("status", .str v.status.name),
   ("tests", .arr (v.tests.map TestSummary.toJson)),
   ("current_test_slug", Json.optional .str v.currentTest),
   ("current_test_time", .nat v.currentTime.toNat),
   ("current_frame", Json.optional .nat v.currentFrame),
   ("highlighted_line", .nat v.highlightedLine), ("is_playing", .bool v.isPlaying),
   ("should_play_on_test_change", .bool v.playsOnTestChange),
   ("test_current_times", Json.ofTable (v.savedTimes.map fun t => .nat t.toNat)),
   ("has_code_been_edited", .bool v.isCodeEdited),
   ("has_ever_had_successful_run", .bool v.hasEverPassed),
   ("was_success_modal_shown", .bool v.wasSuccessShown),
   ("is_spotlight_active", .bool v.isSpotlightOn),
   ("breakpoints", .arr (v.breakpoints.map .nat)), ("folded_lines", .arr (v.foldedLines.map .nat)),
   ("prev_frame", Json.optional .nat v.previousFrame),
   ("next_frame", Json.optional .nat v.nextFrame),
   ("prev_breakpoint_frame", Json.optional .nat v.previousBreakpoint),
   ("next_breakpoint_frame", Json.optional .nat v.nextBreakpoint),
   ("information_widget", v.note.toJson),
   ("task_progress", .arr (v.taskProgress.map TaskProgress.toJson)),
   ("completed_tasks", Json.strings v.completedTasks),
   ("current_task_id", Json.optional .str v.currentTask),
   ("all_tests_passed", .bool v.allTestsPassed)]

/-- The view, and where the test that is shown stands. -/
def Session.entries (s : Session Float) : List (String × Json) :=
  s.view.entries ++
    [("clock", Json.optional (fun r : TestResult Float => r.clock.toJson) s.currentResult?),
     ("current_frame_time", Json.optional (fun f : Frame => .nat f.time.toNat) s.currentFrame?)]

end Walkthrough
