import Walkthrough.JikiScript.Lexer
import Walkthrough.JikiScript.Program

/-! Reading expressions. From loosest to tightest: `or`, `and`, equality, comparison, sums,
products, prefix operators, indexing, and what stands by itself. Binary operators join to the left.

An expression inside brackets is read by `inner`, the reader for one bracket less: at least one
token has been read before it is used, so the number of tokens bounds the nesting. -/

namespace Walkthrough.JikiScript

abbrev Reader := Parser Token Mistake

namespace Reader

open Walkthrough.Parser

def expect (token : Token) (mistake : Mistake) : Reader Unit := do
  if !(← accept token) then fail mistake

def expectName (mistake : Mistake) : Reader String := do
  match ← peek? with
  | some (.name s) =>
    advance
    return s
  | _ => fail mistake

/-- Skips at most so many line breaks. -/
def skipNewlinesTo : Nat → Reader Unit
  | 0 => pure ()
  | bound + 1 => do
    if ← accept .newline then skipNewlinesTo bound

/-- Skips line breaks, of which brackets may hold any number. -/
def skipNewlines : Reader Unit := do
  skipNewlinesTo (← remaining)

/-- Items divided by commas, with line breaks around them. -/
def commaSeparated {α : Type} (item : Reader α) : Nat → Reader (List α)
  | 0 => return [← item]
  | bound + 1 => do
    let first ← item
    skipNewlines
    if ← accept (.mark .comma) then
      skipNewlines
      return first :: (← commaSeparated item bound)
    else return [first]

/-- Items up to a closing token, which is read too. -/
def enclosed {α : Type} (item : Reader α) (closing : Mark) (mistake : Mistake) :
    Reader (List α) := do
  skipNewlines
  let items ←
    if ← isNext (.mark closing) then pure []
    else commaSeparated item (← remaining)
  expect (.mark closing) mistake
  return items

/-- A dictionary entry: a text, a colon, a value. -/
def entry (inner : Reader Expr) : Reader (String × Expr) := do
  match ← peek? with
  | some (.text key) =>
    advance
    expect (.mark .colon) .missingColon
    skipNewlines
    return (key, ← inner)
  | found => fail (.invalidDictionaryKey (Token.displayFound found))

/-- What stands by itself: a literal, a name or a call, and anything in brackets. -/
def primary (inner : Reader Expr) : Reader Expr := do
  let pos ← position
  match ← peek? with
  | some (.number x) =>
    advance
    return .literal (.number x) pos
  | some (.text s) =>
    advance
    return .literal (.text s) pos
  | some (.word .trueWord) =>
    advance
    return .literal (.boolean true) pos
  | some (.word .falseWord) =>
    advance
    return .literal (.boolean false) pos
  | some (.word .nullWord) =>
    advance
    return .literal .null pos
  | some (.name s) =>
    advance
    if ← accept (.mark .lParen) then
      return .call s (← enclosed inner .rParen .missingRightParenAfterCall) pos
    else return .name s pos
  | some (.mark .lParen) =>
    advance
    let value ← inner
    expect (.mark .rParen) .missingRightParenAfterExpression
    return .grouping value pos
  | some (.mark .lBracket) =>
    advance
    return .list (← enclosed inner .rBracket .missingRightBracketAfterList) pos
  | some (.mark .lBrace) =>
    advance
    return .dictionary (← enclosed (entry inner) .rBrace .missingRightBrace) pos
  | found => fail (.missingExpression (Token.displayFound found))

def indexing? (inner : Reader Expr) (object : Expr) : Reader (Option Expr) := do
  let pos ← position
  if ← accept (.mark .lBracket) then
    let key ← inner
    expect (.mark .rBracket) .missingRightBracketAfterIndex
    return some (.index object key pos)
  else return none

def indexed (inner : Reader Expr) : Reader Expr := do
  let object ← primary inner
  chainPostfix (indexing? inner) (← remaining) object

def unaryOp? : Token → Option UnaryOp
  | .word .notWord => some .not
  | .mark .bang => some .not
  | .mark .minus => some .negate
  | _ => none

/-- Prefix operators, as many as there are. -/
def unary (inner : Reader Expr) : Nat → Reader Expr
  | 0 => indexed inner
  | bound + 1 => do
    let pos ← position
    match (← peek?).bind unaryOp? with
    | some op =>
      advance
      return .unary op (← unary inner bound) pos
    | none => indexed inner

/-- An operator of one token, if the next one is such. -/
def binaryOp? (ofToken : Token → Option BinaryOp) : Reader (Option (Expr → Expr → Expr)) := do
  let pos ← position
  match (← peek?).bind ofToken with
  | some op =>
    advance
    return some fun left right => .binary op left right pos
  | none => return none

def factorOp? : Token → Option BinaryOp
  | .mark .star => some .multiply
  | .mark .slash => some .divide
  | .mark .percent => some .remainder
  | _ => none

def termOp? : Token → Option BinaryOp
  | .mark .plus => some .add
  | .mark .minus => some .subtract
  | _ => none

def comparisonOp? : Token → Option BinaryOp
  | .mark .lt => some .less
  | .mark .le => some .lessEqual
  | .mark .gt => some .greater
  | .mark .ge => some .greaterEqual
  | _ => none

/-- An equality operator: one of four tokens, or `not` followed by `equals` or `is`. A single
equals sign is a mistake that gets a message of its own. -/
def equalityOp? : Reader (Option (Expr → Expr → Expr)) := do
  let pos ← position
  let found (op : BinaryOp) : Option (Expr → Expr → Expr) :=
    some fun left right => .binary op left right pos
  match ← peek?, ← peekSecond? with
  | some (.word .isWord), _ =>
    advance
    return found .equal
  | some (.word .equalsWord), _ =>
    advance
    return found .equal
  | some (.mark .eqEq), _ =>
    advance
    return found .equal
  | some (.mark .notEq), _ =>
    advance
    return found .notEqual
  | some (.word .notWord), some (.word .equalsWord) =>
    advance
    advance
    return found .notEqual
  | some (.word .notWord), some (.word .isWord) =>
    advance
    advance
    return found .notEqual
  | some (.mark .eq), _ => fail .equalsForEquality
  | _, _ => return none

def logicalOp? (keyword : Keyword) (op : LogicalOp) : Reader (Option (Expr → Expr → Expr)) := do
  let pos ← position
  if ← accept (.word keyword) then return some fun left right => .logical op left right pos
  else return none

def factor (inner : Reader Expr) : Reader Expr :=
  infixLeft (binaryOp? factorOp?) (do unary inner (← remaining))

def term (inner : Reader Expr) : Reader Expr :=
  infixLeft (binaryOp? termOp?) (factor inner)

def comparison (inner : Reader Expr) : Reader Expr :=
  infixLeft (binaryOp? comparisonOp?) (term inner)

def equality (inner : Reader Expr) : Reader Expr :=
  infixLeft equalityOp? (comparison inner)

def conjunction (inner : Reader Expr) : Reader Expr :=
  infixLeft (logicalOp? .andWord .and) (equality inner)

def disjunction (inner : Reader Expr) : Reader Expr :=
  infixLeft (logicalOp? .orWord .or) (conjunction inner)

/-- Expressions nested at most so deep. With no token left there is no expression. -/
def nested : Nat → Reader Expr
  | 0 => do fail (.missingExpression (Token.displayFound (← peek?)))
  | bound + 1 => disjunction (nested bound)

def expression : Reader Expr := do
  nested (← remaining)

end Reader
end Walkthrough.JikiScript
