import Walkthrough.JavaScript.Program

/-! The tree of a program as nested arrays, for tools that show or compare trees. A node is its
kind, its line, its column, and its parts in order. -/

namespace Walkthrough.JavaScript

def outlineNode (kind : String) (pos : Position) (parts : List Json) : Json :=
  .arr (.str kind :: .nat pos.line :: .nat pos.column :: parts)

def UnaryOp.name : UnaryOp → String
  | .not => "Not"
  | .negate => "Negate"
  | .plus => "Plus"

def BinaryOp.name : BinaryOp → String
  | .add => "Add"
  | .subtract => "Subtract"
  | .multiply => "Multiply"
  | .divide => "Divide"
  | .remainder => "Remainder"
  | .strictEqual => "StrictEqual"
  | .strictNotEqual => "StrictNotEqual"
  | .looseEqual => "LooseEqual"
  | .looseNotEqual => "LooseNotEqual"
  | .less => "Less"
  | .lessEqual => "LessEqual"
  | .greater => "Greater"
  | .greaterEqual => "GreaterEqual"

def LogicalOp.name : LogicalOp → String
  | .and => "And"
  | .or => "Or"

def AssignOp.name : AssignOp → String
  | .assign => "Assign"
  | .add => "Add"
  | .subtract => "Subtract"
  | .multiply => "Multiply"
  | .divide => "Divide"

def UpdateOp.name : UpdateOp → String
  | .increment => "Increment"
  | .decrement => "Decrement"

def DeclarationKind.name : DeclarationKind → String
  | .letBinding => "Let"
  | .constBinding => "Const"

def Literal.outline (pos : Position) : Literal → Json
  | .number x => outlineNode "Number" pos [.str (Number.text x)]
  | .text s => outlineNode "String" pos [.str s]
  | .boolean b => outlineNode "Boolean" pos [.bool b]
  | .null => outlineNode "Null" pos []
  | .undefined => outlineNode "Undefined" pos []

mutual

def Expr.outline : Expr → Json
  | .literal value pos => value.outline pos
  | .name word pos => outlineNode "Identifier" pos [.str word]
  | .array elements pos => outlineNode "Array" pos [.arr (Expr.outlineAll elements)]
  | .object properties pos => outlineNode "Object" pos [.arr (Expr.outlineEntries properties)]
  | .unary op operand pos => outlineNode "Unary" pos [.str op.name, operand.outline]
  | .binary op left right pos =>
    outlineNode "Binary" pos [.str op.name, left.outline, right.outline]
  | .logical op left right pos =>
    outlineNode "Logical" pos [.str op.name, left.outline, right.outline]
  | .conditional test onTrue onFalse pos =>
    outlineNode "Conditional" pos [test.outline, onTrue.outline, onFalse.outline]
  | .assignment op target value pos =>
    outlineNode "Assignment" pos [.str op.name, target.outline, value.outline]
  | .update op before target pos =>
    outlineNode "Update" pos [.str op.name, .bool before, target.outline]
  | .call callee args pos =>
    outlineNode "Call" pos
      [callee.outline, .arr (Expr.outlineAll args), Json.optional .str callee.dottedName?]
  | .member owner property pos => outlineNode "Member" pos [owner.outline, .str property]
  | .index owner key pos => outlineNode "Index" pos [owner.outline, key.outline]
  | .grouping inner pos => outlineNode "Grouping" pos [inner.outline]

def Expr.outlineAll : List Expr → List Json
  | [] => []
  | e :: rest => e.outline :: outlineAll rest

def Expr.outlineEntries : List (String × Expr) → List Json
  | [] => []
  | (key, e) :: rest => .arr [.str key, e.outline] :: outlineEntries rest

end

mutual

def Stmt.outline (s : Stmt) : Json :=
  match s with
  | .declare kind name value pos =>
    outlineNode s.kind pos [.str kind.name, .str name, Json.optional Expr.outline value]
  | .expression value pos => outlineNode s.kind pos [value.outline]
  | .block body pos => outlineNode s.kind pos [.arr (Stmt.outlineAll body)]
  | .conditional test onTrue none pos =>
    outlineNode s.kind pos [test.outline, onTrue.outline, .null]
  | .conditional test onTrue (some onFalse) pos =>
    outlineNode s.kind pos [test.outline, onTrue.outline, onFalse.outline]
  | .whileLoop test body pos => outlineNode s.kind pos [test.outline, body.outline]
  | .forLoop none test update body pos =>
    outlineNode s.kind pos
      [.null, Json.optional Expr.outline test, Json.optional Expr.outline update, body.outline]
  | .forLoop (some start) test update body pos =>
    outlineNode s.kind pos
      [start.outline, Json.optional Expr.outline test, Json.optional Expr.outline update,
       body.outline]
  | .forOf kind name iterable body pos =>
    outlineNode s.kind pos [.str kind.name, .str name, iterable.outline, body.outline]
  | .function name params body pos =>
    outlineNode s.kind pos [.str name, Json.strings params, .arr (Stmt.outlineAll body)]
  | .giveBack value pos => outlineNode s.kind pos [Json.optional Expr.outline value]
  | .leaveLoop pos => outlineNode s.kind pos []
  | .nextIteration pos => outlineNode s.kind pos []

def Stmt.outlineAll : List Stmt → List Json
  | [] => []
  | s :: rest => s.outline :: outlineAll rest

end

end Walkthrough.JavaScript
