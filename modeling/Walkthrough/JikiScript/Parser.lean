import Walkthrough.JikiScript.ExprParser

/-! Reading statements. A statement takes one line; a block opens with `do` at the end of its header
line and closes with `end`, and a chain of conditionals shares one `end`. -/

namespace Walkthrough.JikiScript
namespace Reader

open Walkthrough.Parser

/-- A line break, or the end of the source. -/
def endOfLine : Reader Unit := do
  if ← accept .newline then return
  if ← atEnd then return
  fail (.missingEndOfLine (((← get).last.map Token.lexeme).getD ""))

/-- The name in front of `to`: not a number, and not two names in a row. -/
def variableName (missing : Mistake) : Reader String := do
  match ← peek? with
  | some (.number x) => fail (.numericName (Number.text x))
  | some (.name first) =>
    advance
    match ← peek? with
    | some (.name second) => fail (.spaceInName first second)
    | _ => return first
  | _ => fail missing

def expectTo (name : String) : Reader Unit := do
  if ← isNext (.mark .eq) then fail .equalsForAssignment
  expect (.word .toWord) (.missingTo name)

/-- Index expressions in brackets, one after the other. -/
def indexes : Nat → Reader (List Expr)
  | 0 => return []
  | bound + 1 => do
    if ← accept (.mark .lBracket) then
      let key ← expression
      expect (.mark .rBracket) .missingRightBracketAfterIndex
      return key :: (← indexes bound)
    else return []

def setStatement (pos : Position) : Reader Stmt := do
  let name ← variableName .missingNameInSet
  expectTo name
  return .set name (← expression) pos

/-- An object and all but the last of the indexes behind it; an index stands where its own
expression stands. -/
def indexChain (object : Expr) (keys : List Expr) : Expr :=
  keys.foldl (fun object key => .index object key key.pos) object

def changeStatement (pos : Position) : Reader Stmt := do
  let namePos ← position
  let name ← variableName .missingNameInChange
  let keys ← indexes (← remaining)
  expectTo name
  let value ← expression
  match keys.getLast? with
  | none => return .change name value pos
  | some key => return .changeElement (indexChain (.name name namePos) keys.dropLast) key value pos

def expectDo (block : BlockKind) : Reader Unit := do
  expect (.word .doWord) (.missingDo block)
  endOfLine

/-- The block may be followed by another branch instead of its `end`. -/
def BlockKind.hasBranches : BlockKind → Bool
  | .ifBranch => true
  | .elseBranch => true
  | _ => false

/-- Statements up to `end`, which is read, or up to `else` where a branch may follow. -/
def blockBody (inner : Reader Stmt) (block : BlockKind) : Nat → Reader (List Stmt)
  | 0 => fail (.missingEnd block)
  | bound + 1 => do
    skipNewlines
    match ← peek? with
    | some (.word .endWord) =>
      advance
      return []
    | none => fail (.missingEnd block)
    | found =>
      if found = some (.word .elseWord) && BlockKind.hasBranches block then return []
      else
        let first ← inner
        return first :: (← blockBody inner block bound)

def block (inner : Reader Stmt) (kind : BlockKind) : Reader (List Stmt) := do
  blockBody inner kind ((← remaining) + 1)

/-- A conditional after its `if`, with the branches that follow it. -/
def conditional (inner : Reader Stmt) : Nat → Position → Reader Stmt
  | 0, _ => do fail (.missingExpression (Token.displayFound (← peek?)))
  | bound + 1, pos => do
    let condition ← expression
    expectDo .ifBranch
    let onTrue ← block inner .ifBranch
    if ← accept (.word .elseWord) then
      let elsePos ← position
      if ← accept (.word .ifWord) then
        let chained ← conditional inner bound elsePos
        return .conditional condition onTrue (some [chained]) pos
      else
        expectDo .elseBranch
        let onFalse ← block inner .elseBranch
        if ← isNext (.word .elseWord) then fail .elseAfterElse
        endOfLine
        return .conditional condition onTrue (some onFalse) pos
    else
      endOfLine
      return .conditional condition onTrue none pos

def repeatStatement (inner : Reader Stmt) (pos : Position) : Reader Stmt := do
  let count ← expression
  expect (.word .timesWord) .missingTimes
  expectDo .repeatBody
  let body ← block inner .repeatBody
  endOfLine
  return .repeatTimes count body pos

def forEachStatement (inner : Reader Stmt) (pos : Position) : Reader Stmt := do
  expect (.word .eachWord) .missingEach
  let element ← expectName .missingElementName
  expect (.word .inWord) .missingIn
  let iterable ← expression
  expectDo .forBody
  let body ← block inner .forBody
  endOfLine
  return .forEach element iterable body pos

def plainBlock (inner : Reader Stmt) (pos : Position) : Reader Stmt := do
  endOfLine
  let body ← block inner .plain
  endOfLine
  return .block body pos

def parameters : Nat → Reader (List String)
  | 0 => return [← expectName .missingParameterName]
  | bound + 1 => do
    let first ← expectName .missingParameterName
    if ← accept (.mark .comma) then return first :: (← parameters bound)
    match ← peek? with
    | some (.name _) => fail .missingCommaBetweenParameters
    | _ => return [first]

def functionStatement (inner : Reader Stmt) (topLevel : Bool) (pos : Position) : Reader Stmt := do
  let name ← expectName .missingFunctionName
  if !topLevel then throw { item := .nestedFunction name, position := pos }
  let params ←
    if ← accept (.word .withWord) then parameters (← remaining)
    else if (← isNext (.word .doWord)) || (← isNext .newline) then pure []
    else fail .missingWith
  expectDo .functionBody
  let body ← block inner .functionBody
  endOfLine
  return .function name params body pos

/-- A statement followed by the end of its line. -/
def onOneLine (statement : Reader Stmt) : Reader Stmt := do
  let s ← statement
  endOfLine
  return s

def returnStatement (pos : Position) : Reader Stmt := do
  if ← isNext .newline then return .giveBack none pos
  else return .giveBack (some (← expression)) pos

/-- A statement whose blocks nest at most so deep; functions are declared at the top level only. -/
def statement : Nat → Bool → Reader Stmt
  | 0, _ => do fail (.missingExpression (Token.displayFound (← peek?)))
  | bound + 1, topLevel => do
    let inner := statement bound false
    let pos ← position
    match ← peek? with
    | some (.word .setWord) =>
      advance
      onOneLine (setStatement pos)
    | some (.word .changeWord) =>
      advance
      onOneLine (changeStatement pos)
    | some (.word .logWord) =>
      advance
      onOneLine (do return .log (← expression) pos)
    | some (.word .ifWord) =>
      advance
      conditional inner ((← remaining) + 1) pos
    | some (.word .repeatWord) =>
      advance
      repeatStatement inner pos
    | some (.word .forWord) =>
      advance
      forEachStatement inner pos
    | some (.word .doWord) =>
      advance
      plainBlock inner pos
    | some (.word .functionWord) =>
      advance
      functionStatement inner topLevel pos
    | some (.word .returnWord) =>
      advance
      onOneLine (returnStatement pos)
    | some (.word .breakWord) =>
      advance
      onOneLine (pure (.leaveLoop pos))
    | some (.word .nextWord) =>
      advance
      onOneLine (pure (.nextIteration (Keyword.spelling .nextWord) pos))
    | some (.word .continueWord) =>
      advance
      onOneLine (pure (.nextIteration (Keyword.spelling .continueWord) pos))
    | _ => onOneLine (do return .expression (← expression) pos)

/-- Statements up to the end of the source, with line breaks between them. -/
def statements : Nat → Reader Program
  | 0 => return []
  | bound + 1 => do
    if ← atEnd then return []
    if ← accept .newline then statements bound
    else
      let first ← statement (← remaining) true
      return first :: (← statements bound)

end Reader

def parse (source : String) : Except (Located Mistake) Program := do
  let stream ← tokenize source
  match (Reader.statements stream.ahead.length).run stream with
  | .ok program _ => .ok program
  | .error mistake _ => .error mistake

end Walkthrough.JikiScript
