import Walkthrough.App.Basic
import Walkthrough.Screen.Highlight
import Walkthrough.Screen.Wrap
import Walkthrough.Text.Quoted

/-! What each part of the screen shows. A part that scrolls also settles how far it is scrolled,
since that depends on its size. -/

namespace Walkthrough.App

open Screen

def borderStyle (isFocused : Bool) : Style :=
  if isFocused then (Style.ofColour Theme.focus).emphasised else .ofColour Theme.faint

section

variable {τ : Type}

/-- The frame that is shown has failed. -/
def isAtFailure (a : App τ) : Bool :=
  a.session.currentFrame?.any Frame.isFailure

/-- The first line of the source to be seen, so that the line of interest is in its row: that of the
cursor if the source has the focus, and else the one that runs. -/
def sourceStart (a : App τ) (height row : Nat) : Nat :=
  let total := (Text.lines a.session.view.code).length
  let anchor := if a.focus = .source then a.cursorLine else a.session.view.highlightedLine
  if anchor = 0 || total < anchor then a.sourceOffset
  else if height < total then min (anchor - 1 - row) (total - height)
  else 0

/-- The row of the line of interest: the one it had, or the middle, if that is on the screen. -/
def sourceRowIn (a : App τ) (height : Nat) : Nat :=
  min (a.sourceRow.getD (height / 2)) (height - 1)

/-- Before the number of a line: a breakpoint, a fold, or nothing. -/
def lineMark (view : View) (number : Nat) : Span :=
  if view.breakpoints.contains number then .ofText "●" (.ofColour Theme.failure)
  else if view.foldedLines.contains number then .ofText "▸" (.ofColour Theme.faint)
  else .ofText " " {}

/-- The look of a source line as a whole: folded lines are dimmed, the current line stands out, and
more so when it has failed. -/
def lineLook (a : App τ) (number : Nat) (span : Span) : Span :=
  let isCurrent : Bool := number = a.session.view.highlightedLine
  if a.session.view.foldedLines.contains number then
    { span with style := .ofColour Theme.folded }
  else if isCurrent && a.isAtFailure then
    { span with style := ((Style.ofColour .white).on Theme.failure).emphasised }
  else if isCurrent then
    { span with style := span.style.under { background := some Theme.current } }
  else span

def sourceLine (a : App τ) (number : Nat) (text : String) : Line :=
  let view := a.session.view
  let base := if number = view.highlightedLine then (Style.ofColour Theme.secondary).emphasised
    else .ofColour Theme.faint
  let isCursor : Bool := a.focus = .source && number = a.cursorLine
  let style := { base with reversed := isCursor }
  let label := Span.ofText (Text.alignRight 4 (Number.digits number) ++ " ") style
  { spans := lineMark view number :: label
      :: (highlightLine view.language text).map (a.lineLook number) }

/-- The program, with the line that runs, the cursor, breakpoints and folds. -/
def drawSource (a : App τ) (width height : Nat) : Rows × App τ :=
  let visible := max 1 (height - 2)
  let row := a.sourceRowIn visible
  let start := a.sourceStart visible row
  let numbered := (Text.lines a.session.view.code).zipIdx 1
  let shown := (numbered.drop start).take visible
  let rows := framed (" Source (" ++ a.session.view.language.name ++ ") ")
    (borderStyle (a.focus = .source)) {} width height fun w h =>
      paragraph {} w h (shown.map fun (text, number) => a.sourceLine number text)
  (rows, { a with sourceOffset := start, sourceRow := some row })

def output (a : App τ) : List LogLine :=
  match a.session.currentResult? with
  | some result => result.console.filter fun line => line.time ≤ a.session.view.currentTime
  | none => []

def drawOutput (a : App τ) (width height : Nat) : Rows × App τ :=
  let border := borderStyle (a.focus = .terminal)
  let lines := a.output
  if lines.isEmpty then (remark " Output " "(no output)" border width height, a)
  else
    let visible := max 1 (height - 2)
    let start := min a.terminalScroll (lines.length - visible)
    let items := ((lines.drop start).take visible).map fun line =>
      Item.ofText line.output (.ofColour Theme.plain)
    let rows := framed " Output " border {} width height fun w h =>
      (itemList (w - 1) h items).map fun row => {} :: row
    (rows, { a with terminalScroll := start })

def testLine (view : View) (test : TestSummary) : Line :=
  let icon := if test.passed then Span.ofText " ✔ " (.ofColour Theme.success)
    else .ofText " ✘ " (.ofColour Theme.failure)
  let plain := Style.ofColour Theme.plain
  let style := if view.currentTest = some test.slug then (plain.on Theme.current).emphasised
    else plain
  { spans := [icon, .ofText test.name style] }

def taskLine (view : View) (task : TaskProgress) : Line :=
  let icon := match task.status with
    | .completed => Span.ofText " ✔ " (.ofColour Theme.success)
    | .inProgress => .ofText " ◐ " (.ofColour Theme.secondary)
    | .notStarted => .ofText " ○ " (.ofColour Theme.faint)
  let plain := Style.ofColour Theme.plain
  let style := if view.currentTask = some task.taskId then plain.emphasised else plain
  let count := " " ++ Number.digits task.passed.length ++ "/" ++ Number.digits task.total
  { spans := [icon, .ofText task.taskId style, .ofText count (.ofColour Theme.faint)] }

/-- What is wrong with the test that is shown. -/
def failures (a : App τ) : List String :=
  match a.session.currentResult? with
  | some result => (result.expects.filter fun e => !e.pass).map (·.errorHtml)
  | none => []

def drawTests (a : App τ) (width height : Nat) : Rows :=
  let view := a.session.view
  let border := borderStyle (a.focus = .scenarios)
  if view.tests.isEmpty then remark " Tests " "(press r to run)" border width height
  else
    let complaints := a.failures.map fun html =>
      Line.ofLines ("   " ++ html) (.ofColour Theme.failure)
    let heading := Line.ofText " Tasks" (Style.ofColour Theme.primary).emphasised
    let tasks := if view.taskProgress.isEmpty then []
      else heading :: view.taskProgress.map (taskLine view)
    let items := (view.tests.map (testLine view) ++ complaints ++ tasks).map fun line => [line]
    framed " Tests " border {} width height fun w h => itemList w h items

/-- What the current frame did, or how it failed. -/
def descriptionSpans (frame : Frame) : List Span :=
  match frame.fault? with
  | some fault =>
    let style := Style.ofColour Theme.failure
    [.ofText (fault.kind ++ ": ") style.emphasised, .ofText fault.message style]
  | none => (Text.lines frame.description).map fun text => .ofText text (.ofColour Theme.plain)

def bindingLine (name : String) (value : Snapshot) : Line :=
  { spans := .ofText name (Style.ofColour Theme.primary).emphasised
      :: .ofText " = " (.ofColour Theme.faint) :: highlightValue value.display }

/-- The current frame: its description in the upper third, then the names in scope. -/
def drawFrame (a : App τ) (width height : Nat) : Rows × App τ :=
  let border := borderStyle (a.focus = .bindings)
  let count := (a.session.currentResult?.map (·.frames.length)).getD 0
  let title := match a.session.view.currentFrame with
    | some i => " Frame " ++ Number.digits (i + 1) ++ "/" ++ Number.digits count ++ " "
    | none => " Frame "
  match a.session.currentFrame? with
  | none => (remark title "(no frame selected)" border width height, a)
  | some frame =>
    let inside := height - 2
    let upper := min (max 2 (inside / 3)) inside
    let visible := max 1 (inside - upper)
    let items := frame.bindings.entries.map fun (name, value) => [bindingLine name value]
    let start := min a.bindingsOffset (items.length - visible)
    let rows := framed title border {} width height fun w h =>
      Rows.fit {} w upper
          ((wrap w ((descriptionSpans frame).flatMap Span.glyphs)).map (Row.ofGlyphs {} w))
        ++ itemList w (h - upper) ((items.drop start).take visible)
    (rows, { a with bindingsOffset := start })

def statusBadge : RunStatus → String × Colour
  | .idle => ("IDLE", Theme.faint)
  | .running => ("RUNNING", Theme.secondary)
  | .success => ("PASS", Theme.success)
  | .failure => ("FAIL", Theme.failure)

def keyHints : List (String × String) :=
  [(" ←/→ ", " step "), (" [/] ", " breakpoint "), (" b/f ", " toggle "), (" ⎵ ", " play "),
   (" r ", " run "), (" q ", " quit ")]

end

/-- How long playback of the current test takes, in milliseconds. -/
def duration (a : App Float) : Float :=
  (a.session.currentResult?.map (·.clock.duration)).getD 0.0

/-- The left of the status bar: how the last run ended, where playback stands, and a message. -/
def statusLine (a : App Float) : Line :=
  let view := a.session.view
  let (label, colour) := statusBadge view.status
  let bar (c : Colour) : Style := (Style.ofColour c).on Theme.current
  let time := Number.fixedText 0 view.currentTime.toMillis
  let messageColour := if a.isAtFailure then Theme.failure else Theme.plain
  { spans :=
    [.ofText (" " ++ label ++ " ") ((Style.ofColour .black).on colour).emphasised,
     .ofText (" " ++ time ++ "/" ++ Number.fixedText 0 a.duration ++ " ms ") (bar Theme.primary),
     .ofText " | " (bar Theme.faint),
     .ofText (" " ++ a.message ++ " ") (bar messageColour)] }

/-- The right of the status bar: the keys, and whether playback runs or is at its end. -/
def hintLine (a : App Float) : Line :=
  let bar (c : Colour) : Style := (Style.ofColour c).on Theme.current
  let divider := Span.ofText "│" (bar Theme.faint)
  let hints := keyHints.map fun (key, text) =>
    [Span.ofText key ((Style.ofColour .black).on Theme.faint), Span.ofText text (bar Theme.plain)]
  let badge (text : String) (colour : Colour) : List Span :=
    [divider, .ofText text ((Style.ofColour .black).on colour).emphasised]
  let isAtEnd := a.duration > 0.0 && a.session.view.currentTime.toMillis >= a.duration
  let playback :=
    if a.isPlaying then badge " ▶ PLAYING " Theme.secondary
    else if isAtEnd then badge " END " Theme.failure
    else []
  { spans := [divider].intercalate hints ++ playback }

def drawStatus (a : App Float) (left right : Nat) : Rows :=
  let bar : Style := { background := some Theme.current }
  (paragraph bar left 1 [a.statusLine]).beside
    (paragraph bar right 1 [a.hintLine.alignedRight right])

end Walkthrough.App
