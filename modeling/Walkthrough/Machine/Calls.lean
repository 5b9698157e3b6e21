import Walkthrough.Machine.Basic

/-! Calls. A name is looked up among the program's own functions first, then among the host's.
Program functions nest at most `callLimit` deep: the room that is left is an argument of the call,
and it is what the recursion goes down on. -/

namespace Walkthrough

/-- A function of a program, its body made of statements of some language. -/
structure Function (S : Type) where
  name : String
  params : List String
  body : List S
  position : Position

/-- How deep calls of program functions may nest. -/
def callLimit : Nat := 64

abbrev Caller (W : Type) := String → List Value → Position → Exec W Value

namespace Exec

variable {W S : Type}

/-- The host function of a name; a later one hides an earlier one of the same name. -/
def hostFunction? (functions : List (HostFunction W)) (name : String) : Option (HostFunction W) :=
  functions.reverse.find? fun f => f.name == name

/-- Runs a host function on frozen arguments and thaws its result. The call is counted before it
runs, and not at all when the number of arguments is wrong. -/
def runHost (f : HostFunction W) (args : List Value) (position : Position) : Exec W Value := do
  if !f.arity.accepts args.length then
    raise (.wrongArgumentCount f.name f.arity.text args.length) position
  let m ← get
  let frozen := args.map m.heap.freeze
  let key := (Json.arr (frozen.map Snapshot.toJson)).compact
  let (result, host) := f.run frozen m.host
  set { m with calls := m.calls.count f.name key, host }
  match result with
  | .ok json =>
    modifyGet fun m =>
      let (value, heap) := m.heap.thaw (Snapshot.ofJson json)
      (value, { m with heap })
  | .error (.logic message) => raise (.logicFailure message) position
  | .error (.other message) => raise (.hostFailure f.name message) position

/-- Calls a function that the host offers, if it offers one of that name. -/
def callHost : Caller W := fun name args position => do
  match hostFunction? (← get).functions name with
  | some f =>
    let value ← runHost f args position
    checkTime position
    return value
  | none => raise (.functionNotFound name) position

/-- Binds parameters to arguments one after the other; `pass` says what a parameter gets. -/
def bindParams (pass : Value → Exec W Value) (position : Position) :
    List String → List Value → Exec W Unit
  | param :: params, arg :: args => do
    let value ← pass arg
    declare param value false position
    bindParams pass position params args
  | _, _ => pure ()

/-- Runs a function body up to the first statement that returns. -/
def runBody (exec : S → Exec W Completion) : List S → Exec W Value
  | [] => pure .nothing
  | statement :: rest => do
    match ← exec statement with
    | .returned value => pure value
    | _ => runBody exec rest

/-- Runs a function in a call frame of its own, with no loop open around it. -/
def enter (pass : Value → Exec W Value) (exec : S → Exec W Completion) (f : Function S)
    (args : List Value) (position : Position) : Exec W Value := do
  openCall
  bindParams pass position f.params args
  let outer ← loopDepth
  setLoopDepth 0
  let value ← runBody exec f.body
  setLoopDepth outer
  closeCall
  return value

/-- Finds the function of a name and checks the number of arguments; `run` is what follows for a
function of the program. -/
def resolve (functions : List (Function S))
    (run : Function S → List Value → Position → Exec W Value) : Caller W :=
  fun name args position =>
  match functions.find? fun f => f.name == name with
  | some f =>
    if args.length ≠ f.params.length then
      raise (.wrongArgumentCount f.name (Number.digits f.params.length) args.length) position
    else run f args position
  | none => callHost name args position

/-- Calls with room for so many calls inside each other. -/
def callFunction (functions : List (Function S)) (pass : Value → Exec W Value)
    (exec : Caller W → S → Exec W Completion) : Nat → Caller W
  | 0 => resolve functions fun f _ position => raise (.infiniteRecursion f.name) position
  | room + 1 =>
    resolve functions (enter pass (exec (callFunction functions pass exec room)))

/-- The first name that stands in a list twice, by its second place. -/
def firstRepeated? : List String → List String → Option String
  | _, [] => none
  | seen, name :: rest =>
    if seen.contains name then some name else firstRepeated? (name :: seen) rest

/-- Accepts the functions of a program in order, or names the first that cannot be: its name is
taken, or two of its parameters have one name. -/
def hoist (taken : String → Bool) : List (Function S) → List (Function S) →
    Except Failure (List (Function S))
  | accepted, [] => .ok accepted
  | accepted, f :: rest =>
    if taken f.name || accepted.any (fun g => g.name == f.name) then
      .error { fault := .functionAlreadyDefined f.name, position := f.position }
    else match firstRepeated? [] f.params with
      | some parameter => .error { fault := .duplicateParameter parameter, position := f.position }
      | none => hoist taken (accepted ++ [f]) rest

/-- Runs statements one after the other, whatever way each completes. -/
def runAll (exec : S → Exec W Completion) : List S → Exec W Unit
  | [] => pure ()
  | statement :: rest => do
    let _ ← exec statement
    runAll exec rest

end Exec
end Walkthrough
