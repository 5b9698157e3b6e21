/-! Sets of source lines: where breakpoints are, and which lines are folded away. A set is the list
of its lines in increasing order, each once. -/

namespace Walkthrough

abbrev Lines := List Nat

namespace Lines

def insert (line : Nat) : Lines → Lines
  | [] => [line]
  | first :: rest =>
    if line < first then line :: first :: rest
    else if line = first then first :: rest
    else first :: insert line rest

def ofList (lines : List Nat) : Lines :=
  lines.foldl (fun set line => insert line set) []

/-- Adds a line that is not there and removes one that is. -/
def toggle (lines : Lines) (line : Nat) : Lines :=
  if lines.contains line then lines.erase line else insert line lines

end Lines
end Walkthrough
