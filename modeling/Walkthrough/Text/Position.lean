/-! Where a character, a token or a node of a program stands. -/

namespace Walkthrough

/-- A line and a column, both counted from 1. The default, line 0, is the place of what no
character of a program stands for, such as a call made by the host. -/
structure Position where
  line : Nat := 0
  column : Nat := 0
deriving DecidableEq, Repr, Inhabited

namespace Position

def start : Position := { line := 1, column := 1 }

/-- The place after `c`, when `c` stands at the given one. -/
def after (p : Position) (c : Char) : Position :=
  if c = '\n' then { line := p.line + 1, column := 1 }
  else { p with column := p.column + 1 }

def afterAll (p : Position) (cs : List Char) : Position :=
  cs.foldl after p

end Position
end Walkthrough
