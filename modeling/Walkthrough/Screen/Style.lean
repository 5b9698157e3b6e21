import Walkthrough.Text.Cluster
import Walkthrough.Text.Width

/-! Styled characters: what a cell of the screen holds, and the colours of the application. -/

namespace Walkthrough.Screen

inductive Colour where
  | rgb (red green blue : UInt8)
  | black
  | white
deriving DecidableEq, Repr

/-- A style says only what it sets: a colour that it leaves out stays as it was. -/
structure Style where
  foreground : Option Colour := none
  background : Option Colour := none
  bold : Bool := false
  reversed : Bool := false
deriving DecidableEq, Repr

namespace Style

def ofColour (c : Colour) : Style := { foreground := some c }

/-- What is to be seen when a style is drawn over another. -/
def under (base top : Style) : Style :=
  { foreground := top.foreground <|> base.foreground
    background := top.background <|> base.background
    bold := base.bold || top.bold
    reversed := base.reversed || top.reversed }

def on (s : Style) (c : Colour) : Style := { s with background := some c }

def emphasised (s : Style) : Style := { s with bold := true }

end Style

/-- What is written in a place and how it looks; a blank without a style if nothing is drawn. -/
structure Cell where
  text : List Char := [' ']
  style : Style := {}
deriving DecidableEq, Repr

/-- A cluster of characters and how it looks. -/
structure Glyph where
  chars : List Char
  style : Style := {}
deriving DecidableEq, Repr

namespace Glyph

def width (g : Glyph) : Nat := Text.textWidth g.chars

def totalWidth : List Glyph → Nat
  | [] => 0
  | g :: rest => g.width + totalWidth rest

end Glyph

/-- Characters that look alike. -/
structure Span where
  chars : List Char
  style : Style := {}
deriving DecidableEq, Repr

namespace Span

def ofText (s : String) (style : Style) : Span := ⟨s.toList, style⟩

/-- The columns that are kept for it. -/
def width (s : Span) : Nat := Text.textWidth s.chars

/-- A span is drawn without its line feeds. -/
def glyphs (s : Span) : List Glyph :=
  ((Text.clusters s.chars).filter (· != ['\n'])).map fun chars => { chars, style := s.style }

end Span

/-! The colours in use, by what they stand for. -/

namespace Theme

def plain : Colour := .rgb 205 214 244
def primary : Colour := .rgb 137 180 250
def secondary : Colour := .rgb 250 179 135
def faint : Colour := .rgb 108 112 134
def success : Colour := .rgb 166 227 161
def failure : Colour := .rgb 243 139 168
def keyword : Colour := .rgb 137 180 250
def quoted : Colour := .rgb 250 179 135
def number : Colour := .rgb 250 179 135
def focus : Colour := .rgb 249 226 175
def current : Colour := .rgb 50 50 70
def function : Colour := .rgb 249 226 175
def folded : Colour := .rgb 69 71 90

end Theme

end Walkthrough.Screen
