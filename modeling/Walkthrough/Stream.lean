import Walkthrough.Text.Position

/-! Streams of tokens and parsers that read them. A parser fails with a mistake at a place. The
loops here are bounded by the number of tokens left, which every round makes smaller; with no token
left a round ends the loop by itself, so the bound never cuts a loop short. -/

namespace Walkthrough

/-- Something and its place in the source. -/
structure Located (α : Type) where
  item : α
  position : Position
deriving DecidableEq, Repr

/-- The tokens still to be read, the last one read, and the place where the source ends. -/
structure Stream (T : Type) where
  last : Option T := none
  ahead : List (Located T)
  stop : Position

/-- A reader of tokens `T` whose mistakes are of type `M`. -/
abbrev Parser (T M : Type) := EStateM (Located M) (Stream T)

namespace Parser

variable {T M α : Type}

/-- The next token; none at the end of the source. -/
def peek? : Parser T M (Option T) :=
  return (← get).ahead.head?.map (·.item)

def peekSecond? : Parser T M (Option T) :=
  return (← get).ahead.tail.head?.map (·.item)

def peekThird? : Parser T M (Option T) :=
  return (← get).ahead.tail.tail.head?.map (·.item)

/-- The place of the next token, or of the end of the source. -/
def position : Parser T M Position := do
  let s ← get
  return (s.ahead.head?.map (·.position)).getD s.stop

def remaining : Parser T M Nat :=
  return (← get).ahead.length

def atEnd : Parser T M Bool :=
  return (← get).ahead.isEmpty

/-- Reads one token; at the end of the source nothing happens. -/
def advance : Parser T M Unit :=
  modify fun s =>
    match s.ahead with
    | [] => s
    | token :: rest => { s with last := some token.item, ahead := rest }

def fail (mistake : M) : Parser T M α := do
  throw { item := mistake, position := ← position }

variable [DecidableEq T]

def isNext (token : T) : Parser T M Bool :=
  return (← peek?) = some token

/-- Reads the given token if it is the next one. -/
def accept (token : T) : Parser T M Bool := do
  if ← isNext token then
    advance
    return true
  else return false

omit [DecidableEq T] in
/-- Goes on reading `operator operand` behind what was read, joining to the left. -/
def chainLeft (operator? : Parser T M (Option (α → α → α))) (operand : Parser T M α) :
    Nat → α → Parser T M α
  | 0, left => pure left
  | bound + 1, left => do
    match ← operator? with
    | none => pure left
    | some join =>
      let right ← operand
      chainLeft operator? operand bound (join left right)

omit [DecidableEq T] in
/-- Operands with operators of one level between them, joined to the left. -/
def infixLeft (operator? : Parser T M (Option (α → α → α))) (operand : Parser T M α) :
    Parser T M α := do
  let left ← operand
  chainLeft operator? operand (← remaining) left

omit [DecidableEq T] in
/-- Goes on reading what may stand behind an item, as long as something does. -/
def chainPostfix (tail? : α → Parser T M (Option α)) : Nat → α → Parser T M α
  | 0, item => pure item
  | bound + 1, item => do
    match ← tail? item with
    | none => pure item
    | some longer => chainPostfix tail? bound longer

end Parser
end Walkthrough
