import Walkthrough.Fault
import Walkthrough.Table
import Walkthrough.Value.Heap

/-! Names in scope. A call frame keeps one flat table of its names; each open block keeps a log of
what it declared and what it hid, and closing the block undoes the log. Opening a call starts an
empty frame. Whether a function sees the outermost frame is the language's choice. -/

namespace Walkthrough

/-- Whether function bodies see the variables of the outermost frame. -/
inductive GlobalAccess where
  | visible
  | hidden
deriving DecidableEq, Repr

structure Binding where
  value : Value
  constant : Bool
deriving DecidableEq

/-- The log of one open block: what it declared, and the outer bindings it hid. -/
structure Block where
  shadowed : List (String × Binding) := []
  declared : List String := []
deriving DecidableEq

/-- The names of one call, with the logs of its open blocks, the innermost first. -/
structure CallFrame where
  locals : Table Binding := Table.empty
  blocks : List Block := []
deriving DecidableEq

namespace CallFrame

/-- The innermost open block declared the name; with no block open, any name of the frame counts. -/
def declaredHere (frame : CallFrame) (name : String) : Bool :=
  match frame.blocks with
  | block :: _ => block.declared.contains name
  | [] => frame.locals.contains name

/-- Adds a binding and logs it in the innermost block. -/
def bind (frame : CallFrame) (name : String) (binding : Binding) : CallFrame :=
  let locals := frame.locals.insert name binding
  match frame.blocks with
  | [] => { frame with locals }
  | block :: outer =>
    let hidden := (frame.locals.get? name).toList.map fun outerBinding => (name, outerBinding)
    let block :=
      { shadowed := block.shadowed ++ hidden, declared := block.declared ++ [name] }
    { locals, blocks := block :: outer }

def openBlock (frame : CallFrame) : CallFrame :=
  { frame with blocks := {} :: frame.blocks }

/-- Takes back what the innermost block declared and restores what it hid. -/
def closeBlock (frame : CallFrame) : CallFrame :=
  match frame.blocks with
  | [] => frame
  | block :: outer =>
    let bare := block.declared.foldl (fun t name => t.erase name) frame.locals
    { locals := block.shadowed.foldl (fun t entry => t.insert entry.1 entry.2) bare
      blocks := outer }

end CallFrame

/-- The outermost frame, and the frames of the calls in progress, the innermost first. -/
structure Scopes where
  access : GlobalAccess
  shadowing : Bool
  globals : CallFrame := {}
  calls : List CallFrame := []
deriving DecidableEq

namespace Scopes

def inFunction (s : Scopes) : Bool :=
  !s.calls.isEmpty

def depth (s : Scopes) : Nat :=
  s.calls.length

def current (s : Scopes) : CallFrame :=
  s.calls.headD s.globals

def setCurrent (s : Scopes) (frame : CallFrame) : Scopes :=
  match s.calls with
  | [] => { s with globals := frame }
  | _ :: outer => { s with calls := frame :: outer }

/-- The current frame is a function's and sees the globals besides its own names. -/
def seesGlobals (s : Scopes) : Bool :=
  s.inFunction && s.access == .visible

def openBlock (s : Scopes) : Scopes :=
  s.setCurrent s.current.openBlock

def closeBlock (s : Scopes) : Scopes :=
  s.setCurrent s.current.closeBlock

def openCall (s : Scopes) : Scopes :=
  { s with calls := {} :: s.calls }

/-- Leaves the innermost call; the outermost frame is never left. -/
def closeCall (s : Scopes) : Scopes :=
  { s with calls := s.calls.tail }

/-- Declares a name in the innermost block. A name of the same block is refused, and so is a name
that is visible from outside it unless shadowing is allowed. -/
def declare (s : Scopes) (name : String) (value : Value) (constant : Bool) : Except Fault Scopes :=
  if s.current.declaredHere name then .error (.alreadyDeclared name)
  else if (s.current.locals.contains name || (s.seesGlobals && s.globals.locals.contains name))
      && !s.shadowing then .error (.shadowingDisabled name)
  else .ok (s.setCurrent (s.current.bind name { value, constant }))

def lookup? (s : Scopes) (name : String) : Option Binding :=
  match s.current.locals.get? name with
  | some binding => some binding
  | none => if s.seesGlobals then s.globals.locals.get? name else none

/-- Why a name cannot be used: it belongs to the globals that a function may not see, or to
nothing. -/
def missing (s : Scopes) (name : String) : Fault :=
  if s.inFunction && s.globals.locals.contains name then .notAccessibleInFunction name
  else .notDeclared name

def get (s : Scopes) (name : String) : Except Fault Value :=
  match s.lookup? name with
  | some binding => .ok binding.value
  | none => .error (s.missing name)

def isDeclared (s : Scopes) (name : String) : Bool :=
  (s.lookup? name).isSome

/-- Writes a new value over a binding that is not constant, in the frame that holds it. -/
def assign (s : Scopes) (name : String) (value : Value) : Except Fault Scopes :=
  match s.lookup? name with
  | none => .error (s.missing name)
  | some binding =>
    if binding.constant then .error (.assignmentToConstant name)
    else
      let write (frame : CallFrame) : CallFrame :=
        { frame with locals := frame.locals.insert name { binding with value } }
      if s.current.locals.contains name then .ok (s.setCurrent (write s.current))
      else .ok { s with globals := write s.globals }

def visible (s : Scopes) : Table Binding :=
  if s.seesGlobals then s.globals.locals.overlay s.current.locals else s.current.locals

/-- Every visible name with a frozen copy of its value. -/
def snapshot (s : Scopes) (h : Heap) : Table Snapshot :=
  s.visible.map fun binding => h.freeze binding.value

end Scopes
end Walkthrough
