import Walkthrough.App.Panes
import Walkthrough.Session.Report

/-! The whole screen, and what can be seen of the application from outside, as data. -/

namespace Walkthrough

namespace Screen

/-- So many hundredths of a length, a half rounded up. -/
def share (percent length : Nat) : Nat :=
  (percent * length + 50) / 100

def hexByte (n : UInt8) : List Char :=
  [Json.hexDigit (n.toNat / 16), Json.hexDigit n.toNat]

def Colour.text : Colour → String
  | .rgb red green blue => String.ofList (hexByte red ++ hexByte green ++ hexByte blue)
  | .black => "black"
  | .white => "white"

/-- The colour of a cell; a dash if none is set. -/
def colourText (c : Option Colour) : String :=
  (c.map Colour.text).getD "-"

def Style.modifiers (s : Style) : String :=
  " | ".intercalate ((if s.bold then ["BOLD"] else []) ++ (if s.reversed then ["REVERSED"] else []))

def Span.toJson (s : Span) : Json :=
  Json.strings [String.ofList s.chars, colourText s.style.foreground,
    colourText s.style.background, s.style.modifiers]

/-- Neighbours that look alike, together. -/
def Row.runs : Row → List Span
  | [] => []
  | cell :: rest =>
    match Row.runs rest with
    | run :: more =>
      if run.style = cell.style then { run with chars := cell.text ++ run.chars } :: more
      else { chars := cell.text, style := cell.style } :: run :: more
    | [] => [{ chars := cell.text, style := cell.style }]

def Rows.toJson (rows : Rows) : Json :=
  .arr (rows.map fun row => .arr (row.runs.map Span.toJson))

end Screen

namespace App

open Screen

/-- Draws the screen: source over output on the left, tests over the frame on the right, and the
status bar below. -/
def draw (a : App Float) (width height : Nat) : Rows × App Float :=
  let body := height - 1
  let left := share 60 width
  let right := width - left
  let sourceHeight := share 70 body
  let testsHeight := share 40 body
  let (source, a) := a.drawSource left sourceHeight
  let (output, a) := a.drawOutput left (body - sourceHeight)
  let tests := a.drawTests right testsHeight
  let (frame, a) := a.drawFrame right (body - testsHeight)
  let statusLeft := share 45 width
  let status := if height = 0 then [] else a.drawStatus statusLeft (width - statusLeft)
  (Rows.beside (source ++ output) (tests ++ frame) ++ status, a)

def entries (a : App Float) : List (String × Json) :=
  a.session.entries ++
    [("focused_pane", .str a.focus.name), ("cursor_line", .nat a.cursorLine),
     ("source_offset", .nat a.sourceOffset), ("source_target_row", Json.optional .nat a.sourceRow),
     ("variables_offset", .nat a.bindingsOffset),
     ("terminal_scroll", .str (Number.digits a.terminalScroll)),
     ("should_quit", .bool a.shouldQuit), ("status_message", .str a.message)]

end App
end Walkthrough
