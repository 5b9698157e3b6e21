import Walkthrough.JavaScript.Lexer
import Walkthrough.JavaScript.Program

/-! Reading expressions. From loosest to tightest: assignment, the conditional operator, `||`, `&&`,
equality, comparison, sums, products, prefix operators, updates behind their target, and calls,
members and elements. Binary operators join to the left, assignments to the right.

What stands behind an assignment sign, in a branch of a conditional or inside brackets is read by
`inner`: at least one token has been read before it is used, so the number of tokens bounds the
nesting. -/

namespace Walkthrough.JavaScript

abbrev Reader := Parser Token Mistake

namespace Reader

open Walkthrough.Parser

/-- Fails because something else was found in place of what the grammar asks for. -/
def failMissing {α : Type} (expected : Expected) : Reader α := do
  fail (.missing expected (Token.displayFound (← peek?)))

def expect (mark : Mark) (expected : Expected) : Reader Unit := do
  if !(← accept (.mark mark)) then failMissing expected

def expectName (expected : Expected) : Reader String := do
  match ← peek? with
  | some (.name s) =>
    advance
    return s
  | _ => failMissing expected

/-- Items divided by commas; at least one. -/
def commaSeparated {α : Type} (item : Reader α) : Nat → Reader (List α)
  | 0 => return [← item]
  | bound + 1 => do
    let first ← item
    if ← accept (.mark .comma) then return first :: (← commaSeparated item bound)
    else return [first]

/-- Items divided by commas up to a closing mark, which may stand behind a last comma. -/
def commaTerminated {α : Type} (item : Reader α) (closing : Mark) : Nat → Reader (List α)
  | 0 => do
    if ← isNext (.mark closing) then return []
    return [← item]
  | bound + 1 => do
    if ← isNext (.mark closing) then return []
    let first ← item
    if ← accept (.mark .comma) then return first :: (← commaTerminated item closing bound)
    else return [first]

def arguments (inner : Reader Expr) : Reader (List Expr) := do
  let args ←
    if ← isNext (.mark .rParen) then pure []
    else commaSeparated inner (← remaining)
  expect .rParen .argumentsEnd
  return args

/-- A property of an object: a name or a text, a colon, a value. -/
def property (inner : Reader Expr) : Reader (String × Expr) := do
  let key ← match ← peek? with
    | some (.name key) => pure key
    | some (.text key) => pure key
    | _ => failMissing .propertyName
  advance
  expect .colon .propertyColon
  return (key, ← inner)

/-- What stands by itself: a literal, a name, and anything in brackets. -/
def primary (inner : Reader Expr) : Reader Expr := do
  let pos ← position
  match ← peek? with
  | some (.number x) =>
    advance
    return .literal (.number x) pos
  | some (.text s) =>
    advance
    return .literal (.text s) pos
  | some (.word .trueWord) =>
    advance
    return .literal (.boolean true) pos
  | some (.word .falseWord) =>
    advance
    return .literal (.boolean false) pos
  | some (.word .nullWord) =>
    advance
    return .literal .null pos
  | some (.word .undefinedWord) =>
    advance
    return .literal .undefined pos
  | some (.name s) =>
    advance
    return .name s pos
  | some (.mark .lParen) =>
    advance
    let value ← inner
    expect .rParen .groupEnd
    return .grouping value pos
  | some (.mark .lBracket) =>
    advance
    let elements ← commaTerminated inner .rBracket (← remaining)
    expect .rBracket .arrayEnd
    return .array elements pos
  | some (.mark .lBrace) =>
    advance
    let properties ← commaTerminated (property inner) .rBrace (← remaining)
    expect .rBrace .objectEnd
    return .object properties pos
  | _ => failMissing .expression

/-- A call, a member or an element of what was read. -/
def access? (inner : Reader Expr) (object : Expr) : Reader (Option Expr) := do
  let pos ← position
  if ← accept (.mark .lParen) then
    return some (.call object (← arguments inner) object.pos)
  else if ← accept (.mark .dot) then
    return some (.member object (← expectName .memberName) pos)
  else if ← accept (.mark .lBracket) then
    let key ← inner
    expect .rBracket .indexEnd
    return some (.index object key pos)
  else return none

def accessed (inner : Reader Expr) : Reader Expr := do
  let object ← primary inner
  chainPostfix (access? inner) (← remaining) object

def updateOp? : Token → Option UpdateOp
  | .mark .plusPlus => some .increment
  | .mark .minusMinus => some .decrement
  | _ => none

/-- An update behind its target. -/
def postfixUpdate (inner : Reader Expr) : Reader Expr := do
  let target ← accessed inner
  let pos ← position
  match (← peek?).bind updateOp? with
  | some op =>
    advance
    if !target.isAssignable then fail .invalidUpdateTarget
    return .update op false target pos
  | none => return target

def unaryOp? : Token → Option UnaryOp
  | .mark .bang => some .not
  | .mark .minus => some .negate
  | .mark .plus => some .plus
  | _ => none

/-- Prefix operators and updates in front of their target, as many as there are. -/
def unary (inner : Reader Expr) : Nat → Reader Expr
  | 0 => postfixUpdate inner
  | bound + 1 => do
    let pos ← position
    let found ← peek?
    match found.bind unaryOp?, found.bind updateOp? with
    | some op, _ =>
      advance
      return .unary op (← unary inner bound) pos
    | none, some op =>
      advance
      let target ← unary inner bound
      if !target.isAssignable then fail .invalidUpdateTarget
      return .update op true target pos
    | none, none => postfixUpdate inner

def factorOp? : Token → Option BinaryOp
  | .mark .star => some .multiply
  | .mark .slash => some .divide
  | .mark .percent => some .remainder
  | _ => none

def termOp? : Token → Option BinaryOp
  | .mark .plus => some .add
  | .mark .minus => some .subtract
  | _ => none

def comparisonOp? : Token → Option BinaryOp
  | .mark .lt => some .less
  | .mark .le => some .lessEqual
  | .mark .gt => some .greater
  | .mark .ge => some .greaterEqual
  | _ => none

def equalityOp? : Token → Option BinaryOp
  | .mark .eqEqEq => some .strictEqual
  | .mark .notEqEq => some .strictNotEqual
  | .mark .eqEq => some .looseEqual
  | .mark .notEq => some .looseNotEqual
  | _ => none

/-- An operator of one token, if the next one is such. -/
def binaryOp? (ofToken : Token → Option BinaryOp) : Reader (Option (Expr → Expr → Expr)) := do
  let pos ← position
  match (← peek?).bind ofToken with
  | some op =>
    advance
    return some fun left right => .binary op left right pos
  | none => return none

def logicalOp? (mark : Mark) (op : LogicalOp) : Reader (Option (Expr → Expr → Expr)) := do
  let pos ← position
  if ← accept (.mark mark) then return some fun left right => .logical op left right pos
  else return none

def factor (inner : Reader Expr) : Reader Expr :=
  infixLeft (binaryOp? factorOp?) (do unary inner (← remaining))

def term (inner : Reader Expr) : Reader Expr :=
  infixLeft (binaryOp? termOp?) (factor inner)

def comparison (inner : Reader Expr) : Reader Expr :=
  infixLeft (binaryOp? comparisonOp?) (term inner)

def equality (inner : Reader Expr) : Reader Expr :=
  infixLeft (binaryOp? equalityOp?) (comparison inner)

def conjunction (inner : Reader Expr) : Reader Expr :=
  infixLeft (logicalOp? .andAnd .and) (equality inner)

def disjunction (inner : Reader Expr) : Reader Expr :=
  infixLeft (logicalOp? .orOr .or) (conjunction inner)

/-- A test with two branches behind it, or only what would be the test. -/
def ternary (inner : Reader Expr) : Reader Expr := do
  let test ← disjunction inner
  let pos ← position
  if ← accept (.mark .question) then
    let onTrue ← inner
    expect .colon .ternaryColon
    let onFalse ← inner
    return .conditional test onTrue onFalse pos
  else return test

def assignOp? : Token → Option AssignOp
  | .mark .assign => some .assign
  | .mark .plusAssign => some .add
  | .mark .minusAssign => some .subtract
  | .mark .starAssign => some .multiply
  | .mark .slashAssign => some .divide
  | _ => none

def assignment (inner : Reader Expr) : Reader Expr := do
  let target ← ternary inner
  let pos ← position
  match (← peek?).bind assignOp? with
  | some op =>
    advance
    if !target.isAssignable then fail .invalidAssignmentTarget
    return .assignment op target (← inner) pos
  | none => return target

/-- Expressions nested at most so deep. With no token left there is no expression. -/
def nested : Nat → Reader Expr
  | 0 => failMissing .expression
  | bound + 1 => assignment (nested bound)

def expression : Reader Expr := do
  nested (← remaining)

end Reader
end Walkthrough.JavaScript
