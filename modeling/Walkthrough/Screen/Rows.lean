import Walkthrough.Screen.Style
import Walkthrough.Text.Lines

/-! Rectangles of cells, row by row. A part of the screen is a function of its size; parts are put
beside and below each other, so no part can draw outside its place. -/

namespace Walkthrough.Screen

abbrev Row := List Cell

abbrev Rows := List Row

/-- What is done to a cell. A fresh one is made blank first; then the text, if there is one, is
written, and the style goes over the old one. -/
structure Stroke where
  isFresh : Bool := false
  text : Option (List Char) := none
  style : Style := {}
deriving DecidableEq, Repr

namespace Stroke

def apply (s : Stroke) (old : Cell) : Cell :=
  let base : Cell := if s.isFresh then {} else old
  { text := s.text.getD base.text, style := base.style.under s.style }

/-- Adds something that takes no room. -/
def append (s : Stroke) (g : Glyph) : Stroke :=
  { s with text := some (s.text.getD [' '] ++ g.chars), style := g.style }

end Stroke

def Row.blank (style : Style) (width : Nat) : Row :=
  List.replicate width { style }

/-- Draws over a row, from a column on, as far as the row goes. -/
def Row.paint (row : Row) (start : Nat) (strokes : List Stroke) : Row :=
  row.take start ++ List.zipWith Stroke.apply strokes (row.drop start)
    ++ row.drop (start + strokes.length)

/-- Drawing does not change the size of a row. -/
theorem Row.length_paint (row : Row) (start : Nat) (strokes : List Stroke) :
    (row.paint start strokes).length = row.length := by
  simp only [Row.paint, List.length_append, List.length_take, List.length_zipWith,
    List.length_drop]
  omega

/-- Rows of an exact number. -/
def Rows.fit (base : Style) (width height : Nat) (rows : Rows) : Rows :=
  rows.take height ++ List.replicate (height - rows.length) (Row.blank base width)

def Rows.beside (left right : Rows) : Rows :=
  List.zipWith (· ++ ·) left right

/-- A line of text: spans, over a style for the whole width. -/
structure Line where
  spans : List Span
  style : Style := {}

namespace Line

def ofText (s : String) (style : Style) : Line :=
  { spans := [.ofText s {}], style }

/-- The lines of a text, one after another in one line. -/
def ofLines (s : String) (style : Style) : Line :=
  { spans := (Text.lines s).map fun text => .ofText text {}, style }

def glyphs (line : Line) : List Glyph :=
  line.spans.flatMap Span.glyphs

/-- The line at the right edge, if it is not too long. -/
def alignedRight (width : Nat) (line : Line) : Line :=
  let gap := List.replicate (width - Glyph.totalWidth line.glyphs) ' '
  { line with spans := { chars := gap } :: line.spans }

end Line

/-! Text is drawn in two ways. In a paragraph, what takes no room is left out, and the cells that a
wide glyph covers stay as they are. -/

/-- The glyphs up to the first that does not fit; one that is too wide for any line is skipped. -/
def truncate (width : Nat) (room : Nat) : List Glyph → List Glyph
  | [] => []
  | g :: rest =>
    if width < g.width then truncate width room rest
    else if room < g.width then []
    else g :: truncate width (room - g.width) rest

def Glyph.strokes (g : Glyph) : List Stroke :=
  match g.width with
  | 0 => []
  | covered + 1 => { text := some g.chars, style := g.style } :: List.replicate covered {}

def Row.ofGlyphs (base : Style) (width : Nat) (glyphs : List Glyph) : Row :=
  (Row.blank base width).paint 0 (glyphs.flatMap Glyph.strokes)

/-- Lines from the top, each drawn where it has text. -/
def paragraph (base : Style) (width height : Nat) (lines : List Line) : Rows :=
  Rows.fit base width height
    (lines.map fun line => Row.ofGlyphs base width (truncate width width line.glyphs))

/-! In a list, what takes no room is written into the cell before it, and the cells that a wide
glyph covers are made blank. -/

/-- The strokes of a span in so many columns. `drawn` holds those so far, backwards, and `early`
what takes no room and comes before all that does; it goes into the first cell. -/
def layOut (room : Nat) (drawn : List Stroke) (early : List Glyph) : List Glyph → List Stroke
  | [] => finish drawn early
  | g :: rest =>
    if room < drawn.length + g.width then finish drawn early
    else match g.width, drawn with
      | 0, [] => layOut room [] (early ++ [g]) rest
      | 0, last :: before => layOut room (last.append g :: before) [] rest
      | covered + 1, _ =>
        layOut room (List.replicate covered { isFresh := true } ++ write early g :: drawn) [] rest
where
  write (early : List Glyph) (g : Glyph) : Stroke :=
    { text := some (early.flatMap Glyph.chars ++ g.chars), style := g.style }
  finish (drawn : List Stroke) (early : List Glyph) : List Stroke :=
    match early.getLast? with
    | some g => [write early.dropLast g]
    | none => drawn.reverse

/-- Draws spans one after another; those that take no room are left out. -/
def Row.paintSpans (row : Row) (start : Nat) : List Span → Row
  | [] => row
  | s :: rest =>
    if s.width = 0 then row.paintSpans start rest
    else (row.paint start (layOut (row.length - start) [] [] s.glyphs)).paintSpans
      (start + s.width) rest

/-- An item of a list has a row for every line. -/
abbrev Item := List Line

/-- The items of a list that fit as a whole into so many rows. -/
def fitting : Nat → List Item → List Line
  | _, [] => []
  | height, item :: rest =>
    if item.length ≤ height then item ++ fitting (height - item.length) rest else []

/-- A list of items; the style of a line goes over its whole row. -/
def itemList (width height : Nat) (items : List Item) : Rows :=
  Rows.fit {} width height
    ((fitting height items).map fun line => (Row.blank line.style width).paintSpans 0 line.spans)

/-- The lines of a text as an item; an empty text has one line too. -/
def Item.ofText (s : String) (style : Style) : Item :=
  match Text.lines s with
  | [] => [.ofText "" style]
  | lines => lines.map fun text => .ofText text style

/-- A frame with a title in its upper edge, around rows that are two cells narrower and lower. -/
def framed (title : String) (border base : Style) (width height : Nat) (inner : Nat → Nat → Rows) :
    Rows :=
  let style := base.under border
  let cell (c : Char) : Cell := { text := [c], style }
  let edge (left right : Char) (text : List Char) : Row :=
    let middle := (text ++ List.replicate (width - 2 - text.length) '─').take (width - 2)
    (([left] ++ middle ++ [right]).map cell).take width
  let body := (inner (width - 2) (height - 2)).map fun row =>
    ([cell '│'] ++ row ++ [cell '│']).take width
  Rows.fit {} width height ([edge '┌' '┐' title.toList] ++ body ++ [edge '└' '┘' []])

/-- A frame around a faint remark, where there is nothing to show. -/
def remark (title text : String) (border : Style) (width height : Nat) : Rows :=
  let base := Style.ofColour Theme.faint
  framed title border base width height fun w h =>
    paragraph base w h [{ spans := [.ofText text {}] }]

end Walkthrough.Screen
