import Walkthrough.JikiScript.Program

/-! The tree of a program as nested arrays, for tools that show or compare trees. A node is its
kind, its line, its column, and its parts in order. -/

namespace Walkthrough.JikiScript

def outlineNode (kind : String) (pos : Position) (parts : List Json) : Json :=
  .arr (.str kind :: .nat pos.line :: .nat pos.column :: parts)

def UnaryOp.name : UnaryOp → String
  | .negate => "Negate"
  | .not => "Not"

def BinaryOp.name : BinaryOp → String
  | .add => "Add"
  | .subtract => "Subtract"
  | .multiply => "Multiply"
  | .divide => "Divide"
  | .remainder => "Remainder"
  | .equal => "Equal"
  | .notEqual => "NotEqual"
  | .less => "Less"
  | .lessEqual => "LessEqual"
  | .greater => "Greater"
  | .greaterEqual => "GreaterEqual"

def LogicalOp.name : LogicalOp → String
  | .and => "And"
  | .or => "Or"

def Literal.outline (pos : Position) : Literal → Json
  | .number x => outlineNode "Number" pos [.str (Number.text x)]
  | .text s => outlineNode "String" pos [.str s]
  | .boolean b => outlineNode "Boolean" pos [.bool b]
  | .null => outlineNode "Null" pos []

mutual

def Expr.outline : Expr → Json
  | .literal value pos => value.outline pos
  | .name word pos => outlineNode "Variable" pos [.str word]
  | .list elements pos => outlineNode "List" pos [.arr (Expr.outlineAll elements)]
  | .dictionary entries pos => outlineNode "Dictionary" pos [.arr (Expr.outlineEntries entries)]
  | .unary op operand pos => outlineNode "Unary" pos [.str op.name, operand.outline]
  | .binary op left right pos =>
    outlineNode "Binary" pos [.str op.name, left.outline, right.outline]
  | .logical op left right pos =>
    outlineNode "Logical" pos [.str op.name, left.outline, right.outline]
  | .grouping inner pos => outlineNode "Grouping" pos [inner.outline]
  | .call callee args pos => outlineNode "Call" pos [.str callee, .arr (Expr.outlineAll args)]
  | .index owner key pos => outlineNode "Index" pos [owner.outline, key.outline]

def Expr.outlineAll : List Expr → List Json
  | [] => []
  | e :: rest => e.outline :: outlineAll rest

def Expr.outlineEntries : List (String × Expr) → List Json
  | [] => []
  | (key, e) :: rest => .arr [.str key, e.outline] :: outlineEntries rest

end

mutual

def Stmt.outline (s : Stmt) : Json :=
  match s with
  | .set name value pos => outlineNode s.kind pos [.str name, value.outline]
  | .change name value pos => outlineNode s.kind pos [.str name, value.outline]
  | .changeElement object key value pos =>
    outlineNode s.kind pos [object.outline, key.outline, value.outline]
  | .log value pos => outlineNode s.kind pos [value.outline]
  | .conditional condition onTrue none pos =>
    outlineNode s.kind pos [condition.outline, .arr (Stmt.outlineAll onTrue), .null]
  | .conditional condition onTrue (some onFalse) pos =>
    outlineNode s.kind pos
      [condition.outline, .arr (Stmt.outlineAll onTrue), .arr (Stmt.outlineAll onFalse)]
  | .repeatTimes count body pos =>
    outlineNode s.kind pos [count.outline, .arr (Stmt.outlineAll body)]
  | .forEach element iterable body pos =>
    outlineNode s.kind pos [.str element, iterable.outline, .arr (Stmt.outlineAll body)]
  | .block body pos => outlineNode s.kind pos [.arr (Stmt.outlineAll body)]
  | .function name params body pos =>
    outlineNode s.kind pos [.str name, Json.strings params, .arr (Stmt.outlineAll body)]
  | .giveBack value pos => outlineNode s.kind pos [Json.optional Expr.outline value]
  | .leaveLoop pos => outlineNode s.kind pos []
  | .nextIteration lexeme pos => outlineNode s.kind pos [.str lexeme]
  | .expression value pos => outlineNode s.kind pos [value.outline]

def Stmt.outlineAll : List Stmt → List Json
  | [] => []
  | s :: rest => s.outline :: outlineAll rest

end

end Walkthrough.JikiScript
