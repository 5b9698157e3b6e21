import Walkthrough.Screen.Rows

/-! Breaking one long line between words. Blanks at a break are dropped, and a word longer than a
line is broken where the line ends. -/

namespace Walkthrough.Screen

/-- Words are divided by blanks, of which a no-break space is none. -/
def Glyph.dividesWords (g : Glyph) : Bool :=
  (g.chars.all Text.isBlank && g.chars ≠ [Char.ofNat 0xA0]) || g.chars = [Char.ofNat 0x200B]

/-- The lines that are finished, the line being filled, and what will join it: blanks, then the
word that is being read. -/
structure Wrapping where
  finished : List (List Glyph) := []
  line : List Glyph := []
  blanks : List Glyph := []
  word : List Glyph := []
  /-- The last glyph was part of a word. -/
  inWord : Bool := false

/-- Blanks without those that fit into so many columns. -/
def dropFitting (room : Nat) : List Glyph → List Glyph
  | [] => []
  | g :: rest => if g.width ≤ room then dropFitting (room - g.width) rest else g :: rest

namespace Wrapping

/-- Moves the word to the line, with the blanks before it unless the line starts with it. -/
def takeWord (w : Wrapping) : Wrapping :=
  { w with
    line := (if w.line.isEmpty then [] else w.line ++ w.blanks) ++ w.word
    blanks := []
    word := [] }

/-- Ends the line; the blanks that would have fitted go with it. -/
def breakLine (w : Wrapping) (width : Nat) : Wrapping :=
  { w with
    finished := w.finished ++ [w.line]
    line := []
    blanks := dropFitting (width - Glyph.totalWidth w.line) w.blanks }

/-- Keeps a glyph for later. -/
def keep (w : Wrapping) (g : Glyph) : Wrapping :=
  if g.dividesWords then { w with blanks := w.blanks ++ [g], inWord := false }
  else { w with word := w.word ++ [g], inWord := true }

/-- Reads a glyph that is not wider than a line. A word ends before a blank, or when it fills a line
by itself. -/
def push (width : Nat) (w : Wrapping) (g : Glyph) : Wrapping :=
  let overflows := w.line.isEmpty && (width < Glyph.totalWidth w.word + g.width
    || width < Glyph.totalWidth w.blanks + g.width)
  let w := if (w.inWord && g.dividesWords) || overflows then w.takeWord else w
  let used := Glyph.totalWidth w.line
  let pending := Glyph.totalWidth w.blanks + Glyph.totalWidth w.word
  if width ≤ used || (0 < g.width && width ≤ used + pending) then
    let w := w.breakLine width
    if g.dividesWords && w.blanks.isEmpty then w else w.keep g
  else w.keep g

/-- Reads a glyph; one that is wider than a line is left out. -/
def step (width : Nat) (w : Wrapping) (g : Glyph) : Wrapping :=
  if width < g.width then w else w.push width g

def finish (w : Wrapping) : List (List Glyph) :=
  let onlyBlanks := w.line.isEmpty && w.word.isEmpty && !w.blanks.isEmpty
  let last := w.takeWord.line
  w.finished ++ (if onlyBlanks then [[]] else []) ++ (if last.isEmpty then [] else [last])

end Wrapping

def wrap (width : Nat) (glyphs : List Glyph) : List (List Glyph) :=
  (glyphs.foldl (Wrapping.step width) {}).finish

end Walkthrough.Screen
