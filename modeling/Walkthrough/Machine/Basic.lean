import Walkthrough.Features
import Walkthrough.Host
import Walkthrough.Scopes
import Walkthrough.Text.Lines

/-! The state of a run and the small operations that evaluation is made of. Both endings of an
evaluation, a value and a failure, carry the state in which it ended, so that the frame of a
failure shows the names in scope where it happened. -/

namespace Walkthrough

/-- How a statement ended when nothing failed. -/
inductive Completion where
  | normal
  | broke
  | continued
  | returned (value : Value)
deriving DecidableEq

/-- Everything about a run but the program. -/
structure Machine (W : Type) where
  features : Features
  /-- The trimmed lines of the source. -/
  lines : Array String
  functions : List (HostFunction W)
  frames : Array Frame := #[]
  /-- The loop bodies that were entered, with the one that was refused, if there was one. -/
  iterations : UInt64 := 0
  /-- That count had no room for one body more. -/
  overflowed : Bool := false
  calls : CallLog := Table.empty
  heap : Heap := {}
  scopes : Scopes
  /-- Loops open in the current function body. -/
  loopDepth : Nat := 0
  host : Host W

/-- An evaluation: it ends with a value or a failure, and in a state either way. -/
abbrev Exec (W : Type) := EStateM Failure (Machine W)

namespace Machine

variable {W : Type}

def initial (features : Features) (source : String) (access : GlobalAccess)
    (functions : List (HostFunction W)) (seed : UInt64) (world : W) : Machine W :=
  { features
    lines := ((Text.lines source).map Text.trim).toArray
    functions
    scopes := { access, shadowing := features.shadowing }
    host := { seed, world } }

/-- The trimmed text of a line, counted from 1; line 0 has none. -/
def lineText (m : Machine W) : Nat → String
  | 0 => ""
  | n + 1 => m.lines[n]?.getD ""

/-- Adds a frame at the current time, then lets the time of one frame pass. -/
def addFrame (m : Machine W) (line : Nat) (ending : Ending) : Machine W :=
  let frame : Frame :=
    { time := m.host.time
      line
      code := m.lineText line
      bindings := m.scopes.snapshot m.heap
      ending }
  { m with
    frames := m.frames.push frame
    host := m.host.pass m.features.timePerFrame }

/-- Counts one more loop body; a count without room for it stays as it is. -/
def countBody (m : Machine W) : Machine W :=
  let isFull : Bool := m.iterations + 1 = 0
  { m with
    iterations := if isFull then m.iterations else m.iterations + 1
    overflowed := m.overflowed || isFull }

def addFailure (m : Machine W) (failure : Failure) : Machine W :=
  m.addFrame failure.position.line (.failure failure.fault)

end Machine

namespace Exec

variable {W : Type}

def raise {α : Type} (fault : Fault) (position : Position) : Exec W α :=
  throw { fault, position }

/-- A result that may be a cause, which is then raised at the given place. -/
def orRaise {α : Type} (position : Position) : Except Fault α → Exec W α
  | .ok a => pure a
  | .error fault => raise fault position

def features : Exec W Features :=
  return (← get).features

def heap : Exec W Heap :=
  return (← get).heap

def freeze (v : Value) : Exec W Snapshot :=
  return (← get).heap.freeze v

def newList (items : List Value) : Exec W Value :=
  modifyGet fun m =>
    let (v, heap) := m.heap.newList items
    (v, { m with heap })

def newDict (entries : List (String × Value)) : Exec W Value :=
  modifyGet fun m =>
    let (v, heap) := m.heap.newDict entries
    (v, { m with heap })

def setHeap (heap : Heap) : Exec W Unit :=
  modify fun m => { m with heap }

def readName (name : String) (position : Position) : Exec W Value := do
  orRaise position ((← get).scopes.get name)

def declare (name : String) (value : Value) (constant : Bool) (position : Position) :
    Exec W Unit := do
  let scopes ← orRaise position ((← get).scopes.declare name value constant)
  modify fun m => { m with scopes }

def assign (name : String) (value : Value) (position : Position) : Exec W Unit := do
  let scopes ← orRaise position ((← get).scopes.assign name value)
  modify fun m => { m with scopes }

def openBlock : Exec W Unit :=
  modify fun m => { m with scopes := m.scopes.openBlock }

def closeBlock : Exec W Unit :=
  modify fun m => { m with scopes := m.scopes.closeBlock }

def openCall : Exec W Unit :=
  modify fun m => { m with scopes := m.scopes.openCall }

def closeCall : Exec W Unit :=
  modify fun m => { m with scopes := m.scopes.closeCall }

def inFunction : Exec W Bool :=
  return (← get).scopes.inFunction

def loopDepth : Exec W Nat :=
  return (← get).loopDepth

def setLoopDepth (depth : Nat) : Exec W Unit :=
  modify fun m => { m with loopDepth := depth }

def enterLoop : Exec W Unit :=
  modify fun m => { m with loopDepth := m.loopDepth + 1 }

def leaveLoop : Exec W Unit :=
  modify fun m => { m with loopDepth := m.loopDepth - 1 }

def log (output : String) : Exec W Unit :=
  modify fun m => { m with host := m.host.log output }

/-- Fails once virtual time has passed its limit. -/
def checkTime (position : Position) : Exec W Unit := do
  let m ← get
  if m.features.maxTime < m.host.time then raise (.outOfTime m.features.maxTime.toNat) position

/-- Counts one loop body; fails when that is one too many, for the limit or for the count. -/
def countIteration (position : Position) : Exec W Unit := do
  let m ← get
  set m.countBody
  if m.features.maxIterations.toNat < m.iterations.toNat + 1 then
    raise (.tooManyIterations m.features.maxIterations.toNat) position

/-- How many more loop bodies the run may enter. -/
def iterationsLeft : Exec W Nat := do
  let m ← get
  return m.features.maxIterations.toNat - m.iterations.toNat

/-- Records the success of a statement, then checks the time. -/
def record (position : Position) (kind : String) (value : Option Snapshot) (step : Step) :
    Exec W Unit := do
  modify fun m => m.addFrame position.line (.success kind value step)
  checkTime position

end Exec
end Walkthrough
