import Walkthrough.JikiScript.Element
import Walkthrough.JikiScript.Program
import Walkthrough.Machine.Loops

/-! Running JikiScript. Evaluation goes down on the tree; what a call does is a parameter, so that
calls are bounded by their own limit. The frame of a statement is recorded after its effect and
shows it; a loop records one frame per round before its body runs. -/

namespace Walkthrough.JikiScript

variable {W : Type}

def Literal.value : Literal → Value
  | .number x => .number x
  | .text s => .text s
  | .boolean b => .boolean b
  | .null => .nothing

def truth (v : Value) : Exec W (Except Fault Bool) :=
  return v.condition (← Exec.features).truthiness

/-- The truth of a value used as a condition at a place. -/
def conditionAt (v : Value) (position : Position) : Exec W Bool := do
  Exec.orRaise position (← truth v)

/-- Equality; lists are never compared. -/
def equality (left right : Value) : Except Fault Bool :=
  match left, right with
  | .list _, .list _ => .error .cannotCompareLists
  | left, right => .ok (left.strictEquals right)

/-- Arithmetic on two numbers, rounded to five decimals, except that a remainder is exact. -/
def arithmetic (h : Heap) (op : ArithmeticOp) (left right : Value) : Except Fault Value := do
  let x ← left.numberOperand h
  let y ← right.numberOperand h
  let result := op.apply x y
  return .number (if op = .remainder then result else Number.roundDecimal result)

def comparison (h : Heap) (op : ComparisonOp) (left right : Value) : Except Fault Value := do
  let x ← left.numberOperand h
  let y ← right.numberOperand h
  return .boolean (op.apply x y)

def binary (h : Heap) (left right : Value) : BinaryOp → Except Fault Value
  | .add => arithmetic h .add left right
  | .subtract => arithmetic h .subtract left right
  | .multiply => arithmetic h .multiply left right
  | .divide => arithmetic h .divide left right
  | .remainder => arithmetic h .remainder left right
  | .less => comparison h .less left right
  | .lessEqual => comparison h .lessEqual left right
  | .greater => comparison h .greater left right
  | .greaterEqual => comparison h .greaterEqual left right
  | .equal => return .boolean (← equality left right)
  | .notEqual => return .boolean (!(← equality left right))

def unary (h : Heap) (truthiness : Bool) (v : Value) : UnaryOp → Except Fault Value
  | .negate => return .number (-(← v.numberOperand h))
  | .not => return .boolean (!(← v.condition truthiness))

def LogicalOp.isSettledBy : LogicalOp → Bool → Bool
  | .and, left => !left
  | .or, left => left

mutual

/-- The value of an expression. Operands are evaluated from left to right. -/
def eval (call : Caller W) : Expr → Exec W Value
  | .literal value _ => pure value.value
  | .name name pos => Exec.readName name pos
  | .list elements _ => do Exec.newList (← evalAll call elements)
  | .dictionary entries _ => do Exec.newDict (← evalEntries call [] entries)
  | .unary op operand pos => do
    let v ← eval call operand
    Exec.orRaise pos (unary (← Exec.heap) (← Exec.features).truthiness v op)
  | .binary op left right pos => do
    let x ← eval call left
    let y ← eval call right
    Exec.orRaise pos (binary (← Exec.heap) x y op)
  | .logical op left right pos => do
    let x ← eval call left
    let holds ← conditionAt x pos
    if op.isSettledBy holds then return .boolean holds
    let y ← eval call right
    return .boolean (← conditionAt y pos)
  | .grouping inner _ => eval call inner
  | .call callee args pos => do call callee (← evalAll call args) pos
  | .index object key pos => do
    let v ← eval call object
    let k ← eval call key
    Exec.orRaise pos (readElement (← Exec.heap) v k)

def evalAll (call : Caller W) : List Expr → Exec W (List Value)
  | [] => pure []
  | e :: rest => do
    let v ← eval call e
    return v :: (← evalAll call rest)

/-- The entries of a dictionary behind those that are already there; of one key twice, the later
value stands at the earlier place. -/
def evalEntries (call : Caller W) (found : List (String × Value)) :
    List (String × Expr) → Exec W (List (String × Value))
  | [] => pure found
  | (key, e) :: rest => do
    let v ← eval call e
    evalEntries call (putEntry key v found) rest

end

/-- The name at the root of a chain of indices, for descriptions. -/
def rootName : Expr → String
  | .name name _ => name
  | .index object _ _ => rootName object
  | _ => "the list"

/-- How often a `repeat` runs its body: a whole number from 0 to the limit of the run. -/
def repeatCount (h : Heap) (count : Value) (limit : UInt64) : Except Fault Nat :=
  match count with
  | .number x =>
    if x.isNaN then .error (.repeatCountNotNumber (h.display count))
    else if x < 0.0 then .error (.repeatCountNegative (h.display count))
    else if limit.toFloat < x then .error (.repeatCountTooHigh (h.display count) limit.toNat)
    else if !Number.isWhole x then .error (.repeatCountNotWhole (h.display count))
    else .ok (Number.truncate x).toNat
  | _ => .error (.repeatCountNotNumber (h.display count))

def Stmt.record (s : Stmt) (value : Option Snapshot) (step : Step) : Exec W Unit :=
  Exec.record s.pos s.kind value step

def Stmt.recordValue (s : Stmt) (value : Value) (step : Snapshot → Step) : Exec W Unit := do
  let frozen ← Exec.freeze value
  s.record (some frozen) (step frozen)

/-- A call as a statement tells its arguments, as they were before the call, and its result. -/
def runCall (call : Caller W) (s : Stmt) (callee : String) (args : List Expr) (pos : Position) :
    Exec W Unit := do
  let values ← evalAll call args
  let frozen := values.map (← Exec.heap).freeze
  let result ← call callee values pos
  s.recordValue result (.call callee frozen ·)

mutual

def exec (call : Caller W) (s : Stmt) : Exec W Completion :=
  match s with
  | .set name value pos => do
    let v ← eval call value
    Exec.declare name v false pos
    s.recordValue v (.declare name ·)
    return .normal
  | .change name value pos => do
    let v ← eval call value
    Exec.assign name v pos
    s.recordValue v (.assign name ·)
    return .normal
  | .changeElement object key value pos => do
    let target ← eval call object
    let k ← eval call key
    let v ← eval call value
    Exec.setHeap (← Exec.orRaise pos (writeElement (← Exec.heap) target k v))
    let index ← Exec.freeze k
    s.recordValue v (.changeElement (rootName object) index ·)
    return .normal
  | .log value _ => do
    let v ← eval call value
    Exec.log ((← Exec.heap).output v)
    s.recordValue v .log
    return .normal
  | .conditional condition onTrue onFalse pos => do
    let v ← eval call condition
    let holds ← conditionAt v pos
    s.recordValue v fun _ => .condition "if" holds
    if holds then Exec.inBlock (execAll call onTrue)
    else match onFalse with
      | some body => Exec.inBlock (execAll call body)
      | none => return .normal
  | .repeatTimes count body pos => do
    let n ← eval call count
    let limit := (← Exec.features).maxIterations
    let total ← Exec.orRaise count.pos (repeatCount (← Exec.heap) n limit)
    if total = 0 then
      s.record none (.skippedLoop "repeat")
      return .normal
    Exec.inLoop <| Exec.loopTimes (fun round =>
      Exec.inRound pos (s.record none (.iterate round total)) (execAll call body)) 1 total
  | .forEach element iterable body pos => do
    let v ← eval call iterable
    match Exec.iterable? (← Exec.heap) v with
    | none => Exec.raise (.notIterable ((← Exec.heap).display v)) pos
    | some [] =>
      s.record none (.skippedLoop "for each")
      return .normal
    | some items =>
      Exec.inLoop <| Exec.loopOver (fun (item, round) =>
        Exec.inRound pos (do
          Exec.declare element item false pos
          s.recordValue item (.visit element · round)) (execAll call body)) (items.zipIdx 1)
  | .block body _ => Exec.inBlock (execAll call body)
  | .function name _ _ pos => Exec.raise (.nestedFunction name) pos
  | .giveBack value pos => do
    if !(← Exec.inFunction) then Exec.raise .returnOutsideFunction pos
    let v ← match value with
      | some e => eval call e
      | none => pure .nothing
    s.recordValue v (.giveBack <| some ·)
    return .returned v
  | .leaveLoop pos => do
    if (← Exec.loopDepth) = 0 then Exec.raise .breakOutsideLoop pos
    s.record none .leaveLoop
    return .broke
  | .nextIteration lexeme pos => do
    if (← Exec.loopDepth) = 0 then Exec.raise (.continueOutsideLoop lexeme) pos
    s.record none .nextIteration
    return .continued
  | .expression (.call callee args callPos) _ => do
    runCall call s callee args callPos
    return .normal
  | .expression value _ => do
    let v ← eval call value
    s.recordValue v .expression
    return .normal

/-- Runs statements up to the first that does not end normally. -/
def execAll (call : Caller W) : List Stmt → Exec W Completion
  | [] => pure .normal
  | s :: rest => do
    match ← exec call s with
    | .normal => execAll call rest
    | other => pure other

end

/-- Arguments are passed by value: a parameter gets cells of its own. -/
def pass (v : Value) : Exec W Value :=
  modifyGet fun m =>
    let (copy, heap) := m.heap.deepCopy v
    (copy, { m with heap })

def Program.functions (program : Program) : List (Function Stmt) :=
  program.filterMap Stmt.function?

def Program.statements (program : Program) : List Stmt :=
  program.filter fun s => s.function?.isNone

def caller (functions : List (Function Stmt)) : Caller W :=
  Exec.callFunction functions pass exec callLimit

/-- Registers the functions of a program, wherever they stand, then runs its other statements. What
it gives is how to call a function afterwards. -/
def Program.run (program : Program) : Exec W (Caller W) := do
  let offered := (← get).functions
  let taken (name : String) : Bool := (Exec.hostFunction? offered name).isSome
  match Exec.hoist taken [] program.functions with
  | .error failure => throw failure
  | .ok functions =>
    Exec.runAll (exec (caller functions)) program.statements
    return caller functions

end Walkthrough.JikiScript
