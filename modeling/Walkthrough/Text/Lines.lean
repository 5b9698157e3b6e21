import Walkthrough.Text.Blank

/-! Lines of a text. A line ends at a line feed; a carriage return right before that line feed
belongs to the ending. The last line needs no ending, and a text that ends in a line feed has
no further empty line. -/

namespace Walkthrough.Text

/-- The pieces between line feeds. -/
def splitLines : List Char → List (List Char)
  | [] => []
  | c :: rest =>
    if c = '\n' then [] :: splitLines rest
    else match splitLines rest with
      | [] => [[c]]
      | line :: more =>
        if c = '\r' && line.isEmpty && rest.head? = some '\n' then line :: more
        else (c :: line) :: more

def lines (s : String) : List String :=
  (splitLines s.toList).map String.ofList

/-- The trimmed text of a line, counted from 1. Line 0 stands for no line and has no text, and
so has a line past the end. -/
def lineText (s : String) : Nat → String
  | 0 => ""
  | n + 1 => trim ((lines s)[n]?.getD "")

end Walkthrough.Text
