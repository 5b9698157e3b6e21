import Walkthrough.JavaScript.Parser
import Walkthrough.JavaScript.Run
import Walkthrough.JikiScript.Parser
import Walkthrough.JikiScript.Run

/-! Running a program of either language: parse it, run it, and keep what happened. A source that
does not parse leaves its mistake and nothing else; a run that fails leaves the failure as its last
frame. -/

namespace Walkthrough

inductive Language where
  | jikiScript
  | javaScript
deriving DecidableEq, Repr

namespace Language

def name : Language → String
  | .jikiScript => "jikiscript"
  | .javaScript => "javascript"

def all : List Language := [.jikiScript, .javaScript]

def ofName? (name : String) : Option Language :=
  all.find? fun l => l.name == name

def ofExtension (extension : String) : Language :=
  if extension = "js" || extension = "mjs" then .javaScript else .jikiScript

end Language

/-- Why a source is no program. -/
structure SyntaxError where
  message : String
  position : Position
deriving DecidableEq, Repr

namespace SyntaxError

/-- The message up to its first colon. -/
def kind (error : SyntaxError) : String :=
  String.ofList (error.message.toList.takeWhile (· != ':'))

def text (error : SyntaxError) : String :=
  "Syntax error at line " ++ Number.digits error.position.line ++ ", column "
    ++ Number.digits error.position.column ++ ": " ++ error.message

def toJson (error : SyntaxError) : Json :=
  Json.object
    [("error", .str error.kind), ("message", .str error.message),
     ("line", .nat error.position.line), ("column", .nat error.position.column),
     ("text", .str error.text)]

end SyntaxError

/-- What a run is given besides the source. -/
structure Setup (W : Type) where
  features : Features := {}
  functions : List (HostFunction W) := []
  seed : UInt64 := 0
  world : W

/-- What is left of a run. -/
structure Outcome (W : Type) where
  frames : List Frame := []
  console : List LogLine := []
  calls : CallLog := Table.empty
  error : Option SyntaxError := none
  success : Bool := false
  /-- The clock or the count of loop bodies has outgrown its 64 bits, and the run has broken off. -/
  overflowed : Bool := false
  /-- What the called function gave back, if a call was asked for and nothing failed. -/
  value : Option Snapshot := none
  world : W

namespace Outcome

variable {W : Type}

def ofMistake (error : SyntaxError) (world : W) : Outcome W :=
  { error := some error, world }

def ofMachine (m : Machine W) (value : Option Snapshot) : Outcome W :=
  let frames := m.frames.toList
  { frames
    console := m.host.console.toList
    calls := m.calls
    success := !hasFailure frames
    overflowed := m.overflowed || m.host.overflowed
    value
    world := m.host.world }

end Outcome

namespace Language

variable {W : Type}

/-- A parsed program: what its functions may see, and how it runs. -/
structure Loaded (W : Type) where
  access : GlobalAccess
  run : Exec W (Caller W)

/-- Parses a source of the language. -/
def load (W : Type) (language : Language) (source : String) : Except SyntaxError (Loaded W) :=
  match language with
  | .jikiScript =>
    match JikiScript.parse source with
    | .ok program => .ok { access := .hidden, run := program.run }
    | .error mistake => .error { message := mistake.item.message, position := mistake.position }
  | .javaScript =>
    match JavaScript.parse source with
    | .ok program => .ok { access := .visible, run := program.run }
    | .error mistake => .error { message := mistake.item.message, position := mistake.position }

/-- Runs an evaluation from the start of a run to its outcome. -/
def complete (setup : Setup W) (source : String) (access : GlobalAccess)
    (run : Exec W (Option Snapshot)) : Outcome W :=
  let m := Machine.initial setup.features source access setup.functions setup.seed setup.world
  match run m with
  | .ok value m => .ofMachine m value
  | .error failure m => .ofMachine (m.addFailure failure) none

def interpret (language : Language) (source : String) (setup : Setup W) : Outcome W :=
  match load W language source with
  | .error error => .ofMistake error setup.world
  | .ok loaded =>
    complete setup source loaded.access do
      let _ ← loaded.run
      return none

/-- Arguments that come from outside, in cells of their own. -/
def thawAll : List Json → Exec W (List Value)
  | [] => pure []
  | json :: rest => do
    let value ← modifyGet fun m =>
      let (value, heap) := m.heap.thaw (Snapshot.ofJson json)
      (value, { m with heap })
    return value :: (← thawAll rest)

/-- Runs a program, then calls one of its functions from outside. The call has no place in the
source. -/
def evaluate (language : Language) (source : String) (setup : Setup W) (function : String)
    (args : List Json) : Outcome W :=
  match load W language source with
  | .error error => .ofMistake error setup.world
  | .ok loaded =>
    complete setup source loaded.access do
      let call ← loaded.run
      let value ← call function (← thawAll args) {}
      return some (← Exec.freeze value)

end Language
end Walkthrough
