import Walkthrough.JavaScript.ExprParser

/-! Reading statements. A semicolon behind a statement is optional, and further ones are skipped. -/

namespace Walkthrough.JavaScript
namespace Reader

open Walkthrough.Parser

def optionalSemicolon : Reader Unit := do
  let _ ← accept (.mark .semicolon)

/-- A statement followed by a semicolon or not. -/
def terminated (statement : Reader Stmt) : Reader Stmt := do
  let s ← statement
  optionalSemicolon
  return s

def declarationKind? : Token → Option DeclarationKind
  | .word .letWord => some .letBinding
  | .word .constWord => some .constBinding
  | _ => none

/-- A declaration after its keyword; a constant has to have a value. -/
def declaration (kind : DeclarationKind) (pos : Position) : Reader Stmt := do
  let name ← expectName .variableName
  if ← accept (.mark .assign) then return .declare kind name (some (← expression)) pos
  if kind = .constBinding then fail (.constWithoutValue name)
  return .declare kind name none pos

/-- Statements up to a closing brace, which is read. -/
def blockBody (inner : Reader Stmt) : Nat → Reader (List Stmt)
  | 0 => failMissing .blockEnd
  | bound + 1 => do
    if ← accept (.mark .rBrace) then return []
    if ← atEnd then failMissing .blockEnd
    if ← accept (.mark .semicolon) then blockBody inner bound
    else
      let first ← inner
      return first :: (← blockBody inner bound)

def block (inner : Reader Stmt) : Reader (List Stmt) := do
  blockBody inner ((← remaining) + 1)

def testInParens : Reader Expr := do
  expect .lParen .conditionStart
  let test ← expression
  expect .rParen .conditionEnd
  return test

def conditional (inner : Reader Stmt) (pos : Position) : Reader Stmt := do
  let test ← testInParens
  let onTrue ← inner
  let onFalse ← if ← accept (.word .elseWord) then pure (some (← inner)) else pure none
  return .conditional test onTrue onFalse pos

/-- An expression, unless the mark that ends it comes first. -/
def expressionBefore (closing : Mark) : Reader (Option Expr) := do
  if ← isNext (.mark closing) then return none
  return some (← expression)

/-- What a `for` loop starts with. -/
def forStart : Reader (Option Stmt) := do
  let pos ← position
  match (← peek?).bind declarationKind? with
  | some kind =>
    advance
    return some (← declaration kind pos)
  | none => return (← expressionBefore .semicolon).map (.expression · pos)

/-- The kind and name of a `for` loop over items, up to its `of`; none for the other kind. -/
def forOfHeader? : Reader (Option (DeclarationKind × String)) := do
  match (← peek?).bind declarationKind?, ← peekSecond?, ← peekThird? with
  | some kind, some (.name name), some (.word .ofWord) =>
    advance
    advance
    advance
    return some (kind, name)
  | _, _, _ => return none

def forStatement (inner : Reader Stmt) (pos : Position) : Reader Stmt := do
  expect .lParen .forStart
  match ← forOfHeader? with
  | some (kind, name) =>
    let iterable ← expression
    expect .rParen .forOfEnd
    return .forOf kind name iterable (← inner) pos
  | none =>
    let start ← forStart
    expect .semicolon .forInitEnd
    let test ← expressionBefore .semicolon
    expect .semicolon .forTestEnd
    let update ← expressionBefore .rParen
    expect .rParen .forUpdateEnd
    return .forLoop start test update (← inner) pos

def functionStatement (inner : Reader Stmt) (topLevel : Bool) (pos : Position) : Reader Stmt := do
  let name ← expectName .functionName
  if !topLevel then throw { item := .nestedFunction name, position := pos }
  expect .lParen .parametersStart
  let params ←
    if ← isNext (.mark .rParen) then pure []
    else commaSeparated (expectName .parameterName) (← remaining)
  expect .rParen .parametersEnd
  expect .lBrace .bodyStart
  return .function name params (← block inner) pos

/-- A return after its keyword. Its value has to begin on the same line. -/
def returnStatement (pos : Position) : Reader Stmt := do
  if (← isNext (.mark .semicolon)) || (← isNext (.mark .rBrace)) || (← atEnd)
      || (← position).line ≠ pos.line then
    return .giveBack none pos
  return .giveBack (some (← expression)) pos

/-- A statement nested at most so deep; functions are declared at the top level only. -/
def statement : Nat → Bool → Reader Stmt
  | 0, _ => failMissing .expression
  | bound + 1, topLevel => do
    let inner := statement bound false
    let pos ← position
    match ← peek? with
    | some (.word .letWord) =>
      advance
      terminated (declaration .letBinding pos)
    | some (.word .constWord) =>
      advance
      terminated (declaration .constBinding pos)
    | some (.mark .lBrace) =>
      advance
      return .block (← block inner) pos
    | some (.word .ifWord) =>
      advance
      conditional inner pos
    | some (.word .whileWord) =>
      advance
      let test ← testInParens
      return .whileLoop test (← inner) pos
    | some (.word .forWord) =>
      advance
      forStatement inner pos
    | some (.word .functionWord) =>
      advance
      functionStatement inner topLevel pos
    | some (.word .returnWord) =>
      advance
      terminated (returnStatement pos)
    | some (.word .breakWord) =>
      advance
      terminated (pure (.leaveLoop pos))
    | some (.word .continueWord) =>
      advance
      terminated (pure (.nextIteration pos))
    | _ => terminated (do return .expression (← expression) pos)

/-- Statements up to the end of the source, with semicolons between them. -/
def statements : Nat → Reader Program
  | 0 => return []
  | bound + 1 => do
    if ← atEnd then return []
    if ← accept (.mark .semicolon) then statements bound
    else
      let first ← statement (← remaining) true
      return first :: (← statements bound)

end Reader

def parse (source : String) : Except (Located Mistake) Program := do
  let stream ← tokenize source
  match (Reader.statements stream.ahead.length).run stream with
  | .ok program _ => .ok program
  | .error mistake _ => .error mistake

end Walkthrough.JavaScript
