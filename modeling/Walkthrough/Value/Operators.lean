import Walkthrough.Fault
import Walkthrough.Number.Reading
import Walkthrough.Text.Blank
import Walkthrough.Value.Heap

/-! Operators on values. Each names the cause with which it fails; where it failed is added by
whoever evaluates the expression. -/

namespace Walkthrough

inductive ArithmeticOp where
  | add
  | subtract
  | multiply
  | divide
  | remainder
deriving DecidableEq, Repr

namespace ArithmeticOp

def symbol : ArithmeticOp → String
  | .add => "+"
  | .subtract => "-"
  | .multiply => "*"
  | .divide => "/"
  | .remainder => "%"

def apply : ArithmeticOp → Float → Float → Float
  | .add, x, y => x + y
  | .subtract, x, y => x - y
  | .multiply, x, y => x * y
  | .divide, x, y => x / y
  | .remainder, x, y => Number.remainder x y

end ArithmeticOp

inductive ComparisonOp where
  | less
  | lessEqual
  | greater
  | greaterEqual
deriving DecidableEq, Repr

namespace ComparisonOp

def symbol : ComparisonOp → String
  | .less => "<"
  | .lessEqual => "<="
  | .greater => ">"
  | .greaterEqual => ">="

def apply : ComparisonOp → Float → Float → Bool
  | .less, x, y => x < y
  | .lessEqual, x, y => x ≤ y
  | .greater, x, y => y < x
  | .greaterEqual, x, y => y ≤ x

end ComparisonOp

namespace Value

/-- The number a value stands for under coercion: truth values are 0 and 1, nothing and a blank
text are 0, a text that is no number and all collections are NaN. -/
def toNumber : Value → Float
  | .number x => x
  | .boolean b => if b then 1.0 else 0.0
  | .nothing => 0.0
  | .text s =>
    let cs := Text.trimChars s.toList
    if cs.isEmpty then 0.0 else (Number.read? cs).getD Number.notANumber
  | .list _ => Number.notANumber
  | .dict _ => Number.notANumber

/-- Why an operator refuses its operands when nothing is coerced: `+` names both types, the
others only the first side that is no number. -/
def coercionFault (op : ArithmeticOp) (left right : Value) : Fault :=
  if op = .add then .coercionNotAllowed op.symbol (some left.typeName) (some right.typeName)
  else if left.number?.isNone then .coercionNotAllowed op.symbol (some left.typeName) none
  else .coercionNotAllowed op.symbol none (some right.typeName)

/-- Arithmetic under coercion: `+` joins as soon as one side is a text. -/
def coercedArithmetic (h : Heap) (op : ArithmeticOp) (left right : Value) : Value :=
  if op = .add && (left.isText || right.isText) then .text (h.output left ++ h.output right)
  else .number (op.apply left.toNumber right.toNumber)

/-- Arithmetic: two numbers always, two texts under `+`, and anything if coercion is allowed. -/
def arithmetic (h : Heap) (op : ArithmeticOp) (left right : Value) (coercion : Bool) :
    Except Fault Value :=
  match op, left, right with
  | op, .number x, .number y => .ok (.number (op.apply x y))
  | .add, .text s, .text t => .ok (.text (s ++ t))
  | op, left, right =>
    if coercion then .ok (coercedArithmetic h op left right)
    else .error (coercionFault op left right)

/-- Order; both sides have to be numbers. -/
def compare (op : ComparisonOp) (left right : Value) : Except Fault Bool :=
  match left, right with
  | .number x, .number y => .ok (op.apply x y)
  | .number _, right => .error (.comparisonNeedsNumber op.symbol .right right.typeName)
  | left, _ => .error (.comparisonNeedsNumber op.symbol .left left.typeName)

/-- An operand that has to be a number. -/
def numberOperand (h : Heap) : Value → Except Fault Float
  | .number x => .ok x
  | v => .error (.operandNotNumber (h.display v))

/-- The truth of a condition: of truth values only, unless any value may be used. -/
def condition (truthiness : Bool) : Value → Except Fault Bool
  | .boolean b => .ok b
  | v => if truthiness then .ok v.isTruthy else .error (.truthinessDisabled v.typeName)

/-- Same type and same value. Collections are equal only to themselves, NaN to nothing. -/
def strictEquals : Value → Value → Bool
  | .number x, .number y => x == y
  | .text s, .text t => s == t
  | .boolean a, .boolean b => a == b
  | .nothing, .nothing => true
  | .list a, .list b => a == b
  | .dict a, .dict b => a == b
  | _, _ => false

def isCollection : Value → Bool
  | .list _ => true
  | .dict _ => true
  | _ => false

/-- Equality after coercion: nothing equals only nothing, collections only themselves, texts are
compared as texts, all else as numbers. -/
def looseEquals (left right : Value) : Bool :=
  if left.isNothing || right.isNothing then left.isNothing && right.isNothing
  else if left.isCollection || right.isCollection then strictEquals left right
  else match left, right with
    | .text s, .text t => s == t
    | left, right => left.toNumber == right.toNumber

end Value

namespace Number

/-- A number rounded to five decimals, so that `0.1 + 0.2` reads as `0.3`. -/
def roundDecimal (x : Float) : Float :=
  roundAway (x * 100000.0) / 100000.0

end Number
end Walkthrough
