import Walkthrough.Session.Operation
import Walkthrough.Text.Lines

/-! The terminal application without a terminal: a session, what is on the screen of it, and what
every key does. -/

namespace Walkthrough

/-- The parts of the screen that can have the focus. -/
inductive Pane where
  | source
  | terminal
  | scenarios
  | bindings
deriving DecidableEq, Repr

namespace Pane

def name : Pane → String
  | .source => "Source"
  | .terminal => "Terminal"
  | .scenarios => "Scenarios"
  | .bindings => "Variables"

/-- The panes have an order, in which the last comes before the first. -/
def next : Pane → Pane
  | .source => .terminal
  | .terminal => .scenarios
  | .scenarios => .bindings
  | .bindings => .source

def previous : Pane → Pane
  | .source => .bindings
  | .terminal => .source
  | .scenarios => .terminal
  | .bindings => .scenarios

end Pane

inductive Key where
  | tab
  | backTab
  | left
  | right
  | up
  | down
  | home
  | last
  | enter
  | backspace
  | escape
  | char (c : Char)
deriving DecidableEq, Repr

/-- A key by its name; a character names its own key. -/
def Key.ofName? : String → Option Key
  | "Tab" => some .tab
  | "BackTab" => some .backTab
  | "Left" => some .left
  | "Right" => some .right
  | "Up" => some .up
  | "Down" => some .down
  | "Home" => some .home
  | "End" => some .last
  | "Enter" => some .enter
  | "Backspace" => some .backspace
  | "Esc" => some .escape
  | name =>
    match name.toList with
    | [c] => some (.char c)
    | _ => none

/-- How far one can scroll, which stands for the very end. -/
def maxScroll : Nat := Number.twoTo 64 - 1

structure App (τ : Type) where
  session : Session τ
  focus : Pane := .source
  /-- The line that breakpoints and folds are set on, counted from 1. -/
  cursorLine : Nat := 1
  sourceOffset : Nat := 0
  /-- The row in which the source keeps its line of interest, once it was drawn. -/
  sourceRow : Option Nat := none
  bindingsOffset : Nat := 0
  terminalScroll : Nat := maxScroll
  shouldQuit : Bool := false
  message : String := "Ready!"

namespace App

variable {τ : Type}

def ofSession (session : Session τ) : App τ :=
  { session := session.watch }

def lineCount (a : App τ) : Nat :=
  max 1 (Text.lines a.session.view.code).length

/-- Shows the end of the output, where it is longer than its pane. -/
def scrollToEnd (a : App τ) : App τ :=
  { a with terminalScroll := maxScroll }

def say (a : App τ) (message : String) : App τ :=
  { a with message }

def isPlaying (a : App τ) : Bool :=
  a.session.view.isPlaying

variable [ClockTime τ]

def operate (a : App τ) (op : Session.Operation τ) : App τ :=
  { a with session := a.session.perform op }

/-- Stops playback, so that the place that is gone to stays. -/
def takeControl (a : App τ) : App τ :=
  if a.isPlaying then a.operate .pause else a

def goTo (a : App τ) (op : Session.Operation τ) : App τ :=
  a.takeControl.operate op

def togglePlaying (a : App τ) : App τ :=
  if a.isPlaying then (a.operate .pause).say "Paused" else (a.operate .play).say "Playing..."

/-- Runs the code and tells how many tests passed. -/
def runCode (a : App τ) (now : Int) : App τ :=
  let a := (a.operate (.runCode now)).scrollToEnd
  let results := a.session.results
  a.say (Number.digits (results.filter (·.passed)).length ++ "/" ++ Number.digits results.length
    ++ " passed")

/-- Selects a test by its place in the list of all tests, if there is one. -/
def selectTest (a : App τ) (place : Nat → Nat) : App τ :=
  let tests := a.session.view.tests
  match tests.findIdx? fun t => some t.slug = a.session.view.currentTest with
  | none => a
  | some i =>
    match tests[place i]? with
    | some test => (a.operate (.setCurrentTest test.slug)).say ("Selected " ++ test.slug)
    | none => a

def goToEnd (a : App τ) : App τ :=
  let a := a.takeControl
  let last := (a.session.currentResult?.bind (·.frames.getLast?)).map (·.time)
  let a := match last with
    | some time => a.operate (.setCurrentTime time .nearest true)
    | none => a
  (a.say "Jumped to end").scrollToEnd

def moveUp (a : App τ) : App τ :=
  match a.focus with
  | .source => { a with cursorLine := max 1 (a.cursorLine - 1) }
  | .scenarios => a.selectTest (· - 1)
  | .bindings => { a with bindingsOffset := a.bindingsOffset - 1 }
  | .terminal => { a with terminalScroll := a.terminalScroll - 1 }

def moveDown (a : App τ) : App τ :=
  match a.focus with
  | .source => { a with cursorLine := min (a.cursorLine + 1) a.lineCount }
  | .scenarios => a.selectTest (· + 1)
  | .bindings => { a with bindingsOffset := min (a.bindingsOffset + 1) maxScroll }
  | .terminal => { a with terminalScroll := min (a.terminalScroll + 1) maxScroll }

def pressChar (a : App τ) (now : Int) (c : Char) : App τ :=
  match c with
  | 'q' => { a with shouldQuit := true }
  | 'Q' => { a with shouldQuit := true }
  | ' ' => a.togglePlaying
  | 'r' => a.runCode now
  | '[' => a.goTo .goToPreviousBreakpoint
  | ']' => a.goTo .goToNextBreakpoint
  | 'b' =>
    (a.operate (.toggleBreakpoint a.cursorLine)).say
      ("Toggled breakpoint on line " ++ Number.digits a.cursorLine)
  | 'f' =>
    (a.operate (.toggleFold a.cursorLine)).say
      ("Toggled fold on line " ++ Number.digits a.cursorLine)
  | _ => a

def press (a : App τ) (now : Int) : Key → App τ
  | .tab => { a with focus := a.focus.next }
  | .backTab => { a with focus := a.focus.previous }
  | .left => (a.goTo .goToPreviousFrame).scrollToEnd
  | .right => (a.goTo .goToNextFrame).scrollToEnd
  | .home | .backspace => (a.goTo (.setCurrentTime 0 .nearest true)).say "Jumped to start"
  | .last | .enter => a.goToEnd
  | .up => a.moveUp
  | .down => a.moveDown
  | .escape => a
  | .char c => a.pressChar now c

/-- Lets time pass, in milliseconds, which matters only while playing. -/
def tick (a : App τ) (elapsed : τ) : App τ :=
  if a.isPlaying then a.operate (.tick elapsed) else a

end App
end Walkthrough
