import Walkthrough.Machine.Calls

/-! Programs of JikiScript as trees. Every node knows its place in the source. -/

namespace Walkthrough.JikiScript

inductive Literal where
  | number (x : Float)
  | text (s : String)
  | boolean (b : Bool)
  | null
deriving DecidableEq

inductive UnaryOp where
  | negate
  | not
deriving DecidableEq, Repr

inductive BinaryOp where
  | add
  | subtract
  | multiply
  | divide
  | remainder
  | equal
  | notEqual
  | less
  | lessEqual
  | greater
  | greaterEqual
deriving DecidableEq, Repr

inductive LogicalOp where
  | and
  | or
deriving DecidableEq, Repr

inductive Expr where
  | literal (value : Literal) (pos : Position)
  | name (name : String) (pos : Position)
  | list (elements : List Expr) (pos : Position)
  | dictionary (entries : List (String × Expr)) (pos : Position)
  | unary (op : UnaryOp) (operand : Expr) (pos : Position)
  | binary (op : BinaryOp) (left right : Expr) (pos : Position)
  | logical (op : LogicalOp) (left right : Expr) (pos : Position)
  | grouping (inner : Expr) (pos : Position)
  | call (callee : String) (args : List Expr) (pos : Position)
  | index (object key : Expr) (pos : Position)

instance : Inhabited Expr := ⟨.literal .null {}⟩

/-- Where an expression is reported to stand: an operator at its sign, an index at its bracket. -/
def Expr.pos : Expr → Position
  | .literal _ pos => pos
  | .name _ pos => pos
  | .list _ pos => pos
  | .dictionary _ pos => pos
  | .unary _ _ pos => pos
  | .binary _ _ _ pos => pos
  | .logical _ _ _ pos => pos
  | .grouping _ pos => pos
  | .call _ _ pos => pos
  | .index _ _ pos => pos

/-- Statements. A chain of `else if` is a conditional inside the other branch. -/
inductive Stmt where
  | set (name : String) (value : Expr) (pos : Position)
  | change (name : String) (value : Expr) (pos : Position)
  | changeElement (object key value : Expr) (pos : Position)
  | log (value : Expr) (pos : Position)
  | conditional (condition : Expr) (onTrue : List Stmt) (onFalse : Option (List Stmt))
    (pos : Position)
  | repeatTimes (count : Expr) (body : List Stmt) (pos : Position)
  | forEach (element : String) (iterable : Expr) (body : List Stmt) (pos : Position)
  | block (body : List Stmt) (pos : Position)
  | function (name : String) (params : List String) (body : List Stmt) (pos : Position)
  | giveBack (value : Option Expr) (pos : Position)
  | leaveLoop (pos : Position)
  | nextIteration (lexeme : String) (pos : Position)
  | expression (value : Expr) (pos : Position)

instance : Inhabited Stmt := ⟨.leaveLoop {}⟩

namespace Stmt

def pos : Stmt → Position
  | .set _ _ pos => pos
  | .change _ _ pos => pos
  | .changeElement _ _ _ pos => pos
  | .log _ pos => pos
  | .conditional _ _ _ pos => pos
  | .repeatTimes _ _ pos => pos
  | .forEach _ _ _ pos => pos
  | .block _ pos => pos
  | .function _ _ _ pos => pos
  | .giveBack _ pos => pos
  | .leaveLoop pos => pos
  | .nextIteration _ pos => pos
  | .expression _ pos => pos

def kind : Stmt → String
  | .set .. => "SetVariableStatement"
  | .change .. => "ChangeVariableStatement"
  | .changeElement .. => "ChangeElementStatement"
  | .log .. => "LogStatement"
  | .conditional .. => "IfStatement"
  | .repeatTimes .. => "RepeatStatement"
  | .forEach .. => "ForeachStatement"
  | .block .. => "BlockStatement"
  | .function .. => "FunctionStatement"
  | .giveBack .. => "ReturnStatement"
  | .leaveLoop _ => "BreakStatement"
  | .nextIteration .. => "ContinueStatement"
  | .expression .. => "ExpressionStatement"

def function? : Stmt → Option (Function Stmt)
  | .function name params body position => some { name, params, body, position }
  | _ => none

end Stmt

abbrev Program := List Stmt

end Walkthrough.JikiScript
