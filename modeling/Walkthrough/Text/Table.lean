/-! Sets of characters, as ranges of code points. -/

namespace Walkthrough.Text

/-- A code point lies in one of the given ranges, ends included. -/
def inRanges (ranges : List (Nat × Nat)) (code : Nat) : Bool :=
  ranges.any fun r => r.1 ≤ code && code ≤ r.2

/-- A long table, cut into blocks: the first code point after each block, and the ranges in it. -/
abbrev Blocks := List (Nat × List (Nat × Nat))

/-- A code point lies in a table. Only the block that it belongs to is read. -/
def inBlocks (blocks : Blocks) (code : Nat) : Bool :=
  match blocks.find? fun block => code < block.1 with
  | some block => inRanges block.2 code
  | none => false

end Walkthrough.Text
