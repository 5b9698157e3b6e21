import Walkthrough.Machine.Calls

/-! Programs of the JavaScript subset as trees. Every node knows its place in the source. -/

namespace Walkthrough.JavaScript

inductive Literal where
  | number (x : Float)
  | text (s : String)
  | boolean (b : Bool)
  | null
  | undefined
deriving DecidableEq

inductive UnaryOp where
  | not
  | negate
  | plus
deriving DecidableEq, Repr

inductive BinaryOp where
  | add
  | subtract
  | multiply
  | divide
  | remainder
  | strictEqual
  | strictNotEqual
  | looseEqual
  | looseNotEqual
  | less
  | lessEqual
  | greater
  | greaterEqual
deriving DecidableEq, Repr

inductive LogicalOp where
  | and
  | or
deriving DecidableEq, Repr

/-- A plain assignment, or one that first combines the old value with the new one. -/
inductive AssignOp where
  | assign
  | add
  | subtract
  | multiply
  | divide
deriving DecidableEq, Repr

inductive UpdateOp where
  | increment
  | decrement
deriving DecidableEq, Repr

inductive DeclarationKind where
  | letBinding
  | constBinding
deriving DecidableEq, Repr

inductive Expr where
  | literal (value : Literal) (pos : Position)
  | name (name : String) (pos : Position)
  | array (elements : List Expr) (pos : Position)
  | object (properties : List (String × Expr)) (pos : Position)
  | unary (op : UnaryOp) (operand : Expr) (pos : Position)
  | binary (op : BinaryOp) (left right : Expr) (pos : Position)
  | logical (op : LogicalOp) (left right : Expr) (pos : Position)
  | conditional (test onTrue onFalse : Expr) (pos : Position)
  | assignment (op : AssignOp) (target value : Expr) (pos : Position)
  | update (op : UpdateOp) (before : Bool) (target : Expr) (pos : Position)
  | call (callee : Expr) (args : List Expr) (pos : Position)
  | member (object : Expr) (property : String) (pos : Position)
  | index (object key : Expr) (pos : Position)
  | grouping (inner : Expr) (pos : Position)

instance : Inhabited Expr := ⟨.literal .null {}⟩

namespace Expr

/-- Where an expression is reported to stand: an operator at its sign, a call at its callee. -/
def pos : Expr → Position
  | .literal _ pos => pos
  | .name _ pos => pos
  | .array _ pos => pos
  | .object _ pos => pos
  | .unary _ _ pos => pos
  | .binary _ _ _ pos => pos
  | .logical _ _ _ pos => pos
  | .conditional _ _ _ pos => pos
  | .assignment _ _ _ pos => pos
  | .update _ _ _ pos => pos
  | .call _ _ pos => pos
  | .member _ _ pos => pos
  | .index _ _ pos => pos
  | .grouping _ pos => pos

/-- The dotted name that an expression spells, if it is a chain of names. -/
def dottedName? : Expr → Option String
  | .name word _ => some word
  | .member owner property _ => owner.dottedName?.map (· ++ "." ++ property)
  | _ => none

/-- Values can be stored in names, members and elements only. -/
def isAssignable : Expr → Bool
  | .name .. => true
  | .member .. => true
  | .index .. => true
  | _ => false

end Expr

inductive Stmt where
  | declare (kind : DeclarationKind) (name : String) (value : Option Expr) (pos : Position)
  | expression (value : Expr) (pos : Position)
  | block (body : List Stmt) (pos : Position)
  | conditional (test : Expr) (onTrue : Stmt) (onFalse : Option Stmt) (pos : Position)
  | whileLoop (test : Expr) (body : Stmt) (pos : Position)
  | forLoop (start : Option Stmt) (test update : Option Expr) (body : Stmt) (pos : Position)
  | forOf (kind : DeclarationKind) (name : String) (iterable : Expr) (body : Stmt) (pos : Position)
  | function (name : String) (params : List String) (body : List Stmt) (pos : Position)
  | giveBack (value : Option Expr) (pos : Position)
  | leaveLoop (pos : Position)
  | nextIteration (pos : Position)

instance : Inhabited Stmt := ⟨.leaveLoop {}⟩

namespace Stmt

def pos : Stmt → Position
  | .declare _ _ _ pos => pos
  | .expression _ pos => pos
  | .block _ pos => pos
  | .conditional _ _ _ pos => pos
  | .whileLoop _ _ pos => pos
  | .forLoop _ _ _ _ pos => pos
  | .forOf _ _ _ _ pos => pos
  | .function _ _ _ pos => pos
  | .giveBack _ pos => pos
  | .leaveLoop pos => pos
  | .nextIteration pos => pos

def kind : Stmt → String
  | .declare .. => "VariableDeclaration"
  | .expression .. => "ExpressionStatement"
  | .block .. => "BlockStatement"
  | .conditional .. => "IfStatement"
  | .whileLoop .. => "WhileStatement"
  | .forLoop .. => "ForStatement"
  | .forOf .. => "ForOfStatement"
  | .function .. => "FunctionDeclaration"
  | .giveBack .. => "ReturnStatement"
  | .leaveLoop _ => "BreakStatement"
  | .nextIteration _ => "ContinueStatement"

def function? : Stmt → Option (Function Stmt)
  | .function name params body position => some { name, params, body, position }
  | _ => none

end Stmt

abbrev Program := List Stmt

end Walkthrough.JavaScript
