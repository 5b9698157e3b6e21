import Walkthrough.Exercise.Maze
import Walkthrough.Language

/-! Scenarios: what a program is tried on, and what is expected of it. A visual scenario lays out a
maze, runs the program in it and looks at the maze afterwards; the other kind calls a function of
the program and compares what it gives back. Both may also look at the code. -/

namespace Walkthrough

/-- One thing that was expected, and whether it came true. -/
structure Expect where
  pass : Bool
  errorHtml : String
  actual : Option Json := none
  expected : Option Json := none

namespace Expect

def fail (errorHtml : String) : Expect :=
  { pass := false, errorHtml }

/-- What a scenario made for another kind of world says of this one. -/
def wrongWorld (slug : String) : Expect :=
  fail ("This scenario cannot check a " ++ slug ++ " exercise.")

def toJson (e : Expect) : Json :=
  Json.object
    [("pass", .bool e.pass), ("errorHtml", .str e.errorHtml), ("actual", e.actual.getD .null),
     ("expected", e.expected.getD .null)]

end Expect

/-- What a look at the code can see. -/
structure CodeView where
  code : String
  language : Language
  calls : CallLog

namespace CodeView

/-- The names of the functions that a source declares; none if it does not parse. -/
def functionNames (v : CodeView) : List String :=
  match v.language with
  | .jikiScript =>
    match JikiScript.parse v.code with
    | .ok program => program.functions.map (·.name)
    | .error _ => []
  | .javaScript =>
    match JavaScript.parse v.code with
    | .ok program => program.functions.map (·.name)
    | .error _ => []

def definesFunction (v : CodeView) (name : String) : Bool :=
  v.functionNames.contains name

/-- How often a host function was entered, whatever the arguments. -/
def callCount (v : CodeView) (name : String) : Nat :=
  v.calls.total name

/-- A line that holds more than blanks and a comment. -/
def isCodeLine (line : String) : Bool :=
  match Text.trimChars line.toList with
  | [] => false
  | '/' :: '/' :: _ => false
  | _ => true

def lineCount (v : CodeView) : Nat :=
  (Text.lines v.code).countP isCodeLine

end CodeView

/-- A look at the code; it can also go wrong. -/
structure CodeCheck where
  errorHtml : String
  passes : CodeView → Except String Bool

/-- What a look at the code has to complain of. -/
def CodeCheck.complaint? (check : CodeCheck) (view : CodeView) : Option Expect :=
  match check.passes view with
  | .ok true => none
  | .ok false => some (.fail check.errorHtml)
  | .error message => some (.fail ("Code check error: " ++ message))

/-- A call that is made after the program has run. -/
structure FunctionCall where
  name : String
  args : List Json

structure VisualScenario where
  prepare : Maze → Maze := id
  expectations : Maze → List Expect
  checks : List CodeCheck := []
  call : Option FunctionCall := none
  seed : UInt64 := 0

structure CallScenario where
  call : FunctionCall
  expected : Json
  checks : List CodeCheck := []

inductive ScenarioKind where
  | visual (scenario : VisualScenario)
  | io (scenario : CallScenario)

def ScenarioKind.name : ScenarioKind → String
  | .visual _ => "visual"
  | .io _ => "io"

structure Scenario where
  slug : String
  name : String
  description : String := ""
  taskId : String
  kind : ScenarioKind

def Scenario.toJson (s : Scenario) : Json :=
  Json.object
    [("slug", .str s.slug), ("name", .str s.name), ("description", .str s.description),
     ("task_id", .str s.taskId), ("kind", .str s.kind.name)]

end Walkthrough
