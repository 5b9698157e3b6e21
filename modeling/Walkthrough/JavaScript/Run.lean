import Walkthrough.JavaScript.Element
import Walkthrough.JavaScript.Program
import Walkthrough.Machine.Loops

/-! Running the JavaScript subset. Coercion, truthiness and loose equality are each a switch.
Assignment is an expression: it gives a value, and it tells what was stored under which name. -/

namespace Walkthrough.JavaScript

variable {W : Type}

def Literal.value : Literal → Value
  | .number x => .number x
  | .text s => .text s
  | .boolean b => .boolean b
  | .null => .nothing
  | .undefined => .nothing

/-- The truth of a value used as a condition at a place. -/
def conditionAt (v : Value) (position : Position) : Exec W Bool := do
  Exec.orRaise position (v.condition (← Exec.features).truthiness)

/-- The sign of a number, or of what a value stands for under coercion. -/
def signed (coercion : Bool) (operator : String) (apply : Float → Float) (v : Value) :
    Except Fault Value :=
  match v with
  | .number x => .ok (.number (apply x))
  | v =>
    if coercion then .ok (.number (apply v.toNumber))
    else .error (.coercionNotAllowed operator none (some v.typeName))

def unary (features : Features) (v : Value) : UnaryOp → Except Fault Value
  | .not => return .boolean (!(← v.condition features.truthiness))
  | .negate => signed features.coercion "-" (fun x => -x) v
  | .plus => signed features.coercion "+" (fun x => x) v

/-- Loose equality, where it is allowed at all. -/
def looseEquality (features : Features) (operator : String) (left right : Value) :
    Except Fault Bool :=
  if features.strictEquality then .error (.strictEqualityRequired operator)
  else .ok (left.looseEquals right)

def binary (features : Features) (h : Heap) (left right : Value) : BinaryOp → Except Fault Value
  | .add => Value.arithmetic h .add left right features.coercion
  | .subtract => Value.arithmetic h .subtract left right features.coercion
  | .multiply => Value.arithmetic h .multiply left right features.coercion
  | .divide => Value.arithmetic h .divide left right features.coercion
  | .remainder => Value.arithmetic h .remainder left right features.coercion
  | .less => return .boolean (← Value.compare .less left right)
  | .lessEqual => return .boolean (← Value.compare .lessEqual left right)
  | .greater => return .boolean (← Value.compare .greater left right)
  | .greaterEqual => return .boolean (← Value.compare .greaterEqual left right)
  | .strictEqual => .ok (.boolean (left.strictEquals right))
  | .strictNotEqual => .ok (.boolean (!left.strictEquals right))
  | .looseEqual => return .boolean (← looseEquality features "==" left right)
  | .looseNotEqual => return .boolean (!(← looseEquality features "!=" left right))

def LogicalOp.isSettledBy : LogicalOp → Bool → Bool
  | .and, left => !left
  | .or, left => left

/-- The operation that an assignment does before it stores. -/
def AssignOp.arithmetic? : AssignOp → Option ArithmeticOp
  | .assign => none
  | .add => some .add
  | .subtract => some .subtract
  | .multiply => some .multiply
  | .divide => some .divide

def UpdateOp.arithmetic : UpdateOp → ArithmeticOp
  | .increment => .add
  | .decrement => .subtract

/-- What a store gave: the value of the expression, the value that is stored now, and the name of
the place as descriptions tell it. -/
structure Stored where
  value : Value
  stored : Value
  name : String

/-- The output of `console.log`: its arguments with a blank between them. -/
def consoleText (h : Heap) (args : List Value) : String :=
  " ".intercalate (args.map h.output)

def arithmeticAt (op : ArithmeticOp) (left right : Value) (pos : Position) : Exec W Value := do
  let coercion := (← Exec.features).coercion
  Exec.orRaise pos (Value.arithmetic (← Exec.heap) op left right coercion)

/-- The name that the runtime itself provides. -/
def consoleLog : String := "console.log"

/-- Calls what a callee names; only names can be called. -/
def callNamed (call : Caller W) (callee : Expr) (args : List Value) (pos : Position) :
    Exec W Value :=
  match callee.dottedName? with
  | some name => call name args pos
  | none => Exec.raise (.functionNotFound "(anonymous)") pos

/-- An assignment from how its value is found, its target read and its target written. The value
comes first; a target that is combined with it is read after it. -/
def assignWith (op : AssignOp) (value read : Exec W Value) (write : Value → Exec W String)
    (pos : Position) : Exec W Stored := do
  let v ← value
  let stored ← match op.arithmetic? with
    | none => pure v
    | some op => do arithmeticAt op (← read) v pos
  let name ← write stored
  return { value := stored, stored, name }

/-- An update in front of its target gives the new value, one behind it the old value. -/
def updateWith (op : UpdateOp) (before : Bool) (read : Exec W Value)
    (write : Value → Exec W String) (pos : Position) : Exec W Stored := do
  let current ← read
  let stored ← arithmeticAt op.arithmetic current (.number 1.0) pos
  let name ← write stored
  return { value := if before then stored else current, stored, name }

mutual

/-- The value of an expression. Operands are evaluated from left to right. -/
def eval (call : Caller W) : Expr → Exec W Value
  | .literal value _ => pure value.value
  | .name name pos => Exec.readName name pos
  | .array elements _ => do Exec.newList (← evalAll call elements)
  | .object properties _ => do Exec.newDict (← evalEntries call [] properties)
  | .unary op operand pos => do
    let v ← eval call operand
    Exec.orRaise pos (unary (← Exec.features) v op)
  | .binary op left right pos => do
    let x ← eval call left
    let y ← eval call right
    Exec.orRaise pos (binary (← Exec.features) (← Exec.heap) x y op)
  | .logical op left right pos => do
    let x ← eval call left
    let holds ← conditionAt x pos
    if op.isSettledBy holds then return x
    let y ← eval call right
    let _ ← conditionAt y pos
    return y
  | .conditional test onTrue onFalse pos => do
    let v ← eval call test
    if ← conditionAt v pos then eval call onTrue else eval call onFalse
  | .assignment op target value pos => do
    let result ← assignWith op (eval call value) (eval call target) (store call target) pos
    return result.value
  | .update op before target pos => do
    let result ← updateWith op before (eval call target) (store call target) pos
    return result.value
  | .call callee args pos => do
    let values ← evalAll call args
    if callee.dottedName? = some consoleLog then
      Exec.log (consoleText (← Exec.heap) values)
      return .nothing
    else callNamed call callee values pos
  | .member object property pos => do
    let v ← eval call object
    Exec.orRaise pos (readProperty (← Exec.heap) v property)
  | .index object key pos => do
    let v ← eval call object
    let k ← eval call key
    Exec.orRaise pos (readElement (← Exec.heap) v k)
  | .grouping inner _ => eval call inner

def evalAll (call : Caller W) : List Expr → Exec W (List Value)
  | [] => pure []
  | e :: rest => do
    let v ← eval call e
    return v :: (← evalAll call rest)

/-- The entries of an object behind those that are already there; of one key twice, the later value
stands at the earlier place. -/
def evalEntries (call : Caller W) (found : List (String × Value)) :
    List (String × Expr) → Exec W (List (String × Value))
  | [] => pure found
  | (key, e) :: rest => do
    let v ← eval call e
    evalEntries call (putEntry key v found) rest

/-- Stores a value in a name, a member or an element, and tells the name of the place. The parts of
the target are evaluated here, whether or not they were before. -/
def store (call : Caller W) (target : Expr) (value : Value) : Exec W String :=
  match target with
  | .name name pos => do
    Exec.assign name value pos
    return name
  | .member object property pos => do
    let v ← eval call object
    Exec.setHeap (← Exec.orRaise pos (writeProperty (← Exec.heap) v property value))
    return (object.dottedName?.getD "") ++ "." ++ property
  | .index object key pos => do
    let v ← eval call object
    let k ← eval call key
    Exec.setHeap (← Exec.orRaise pos (writeElement (← Exec.heap) v k value))
    return (object.dottedName?.getD "") ++ "[" ++ (← Exec.heap).display k ++ "]"
  | _ => Exec.raise .targetNotModifiable target.pos

end

def Stmt.record (s : Stmt) (value : Option Snapshot) (step : Step) : Exec W Unit :=
  Exec.record s.pos s.kind value step

def Stmt.recordValue (s : Stmt) (value : Value) (step : Snapshot → Step) : Exec W Unit := do
  let frozen ← Exec.freeze value
  s.record (some frozen) (step frozen)

/-- A call as a statement tells its arguments, as they were before the call, and its result; a call
of `console.log` tells what was written. -/
def runCall (call : Caller W) (s : Stmt) (callee : Expr) (args : List Expr) (pos : Position) :
    Exec W Unit := do
  let values ← evalAll call args
  let name := callee.dottedName?.getD ""
  if name = consoleLog then
    let output := consoleText (← Exec.heap) values
    Exec.log output
    s.record (some (.text output)) (.log (.text output))
  else
    let frozen := values.map (← Exec.heap).freeze
    let result ← callNamed call callee values pos
    s.recordValue result (.call name frozen ·)

def runExpression (call : Caller W) (s : Stmt) : Expr → Exec W Unit
  | .call callee args pos => runCall call s callee args pos
  | .assignment op target value pos => do
    let result ← assignWith op (eval call value) (eval call target) (store call target) pos
    s.recordValue result.stored (.assign result.name ·)
  | .update op before target pos => do
    let result ← updateWith op before (eval call target) (store call target) pos
    s.recordValue result.stored (.assign result.name ·)
  | e => do
    let v ← eval call e
    s.recordValue v .expression

/-- The test of a conditional or loop, with its frame. -/
def runTest (call : Caller W) (s : Stmt) (kind : String) (test : Expr) : Exec W Bool := do
  let v ← eval call test
  let holds ← conditionAt v test.pos
  s.recordValue v fun _ => .condition kind holds
  return holds

def DeclarationKind.isConstant : DeclarationKind → Bool
  | .letBinding => false
  | .constBinding => true

mutual

def exec (call : Caller W) (s : Stmt) : Exec W Completion :=
  match s with
  | .declare kind name value pos => do
    let v ← match value with
      | some e => eval call e
      | none => pure .nothing
    Exec.declare name v kind.isConstant pos
    s.recordValue v (.declare name ·)
    return .normal
  | .expression value _ => do
    runExpression call s value
    return .normal
  | .block body _ => Exec.inBlock (execAll call body)
  | .conditional test onTrue onFalse _ => do
    if ← runTest call s "if" test then exec call onTrue
    else match onFalse with
      | some other => exec call other
      | none => return .normal
  | .whileLoop test body pos =>
    Exec.inLoop do
      Exec.loopWhile pos (runTest call s "while" test) (exec call body) (pure ())
        (← Exec.iterationsLeft)
  | .forLoop start test update body pos =>
    Exec.inBlock do
      match start with
      | some first => let _ ← exec call first
      | none => pure ()
      let holds := match test with
        | some e => runTest call s "for" e
        | none => pure true
      let step := match update with
        | some e => do let _ ← eval call e
        | none => pure ()
      Exec.inLoop do
        Exec.loopWhile pos holds (exec call body) step (← Exec.iterationsLeft)
  | .forOf kind name iterable body pos => do
    let v ← eval call iterable
    match Exec.iterable? (← Exec.heap) v with
    | none => Exec.raise (.ofTargetNotIterable v.typeName) pos
    | some [] =>
      s.record none (.skippedLoop "for...of")
      return .normal
    | some items =>
      Exec.inLoop <| Exec.loopOver (fun (item, round) =>
        Exec.inRound pos (do
          Exec.declare name item kind.isConstant pos
          s.recordValue item (.visit name · round)) (exec call body)) (items.zipIdx 1)
  | .function name _ _ pos => Exec.raise (.nestedFunction name) pos
  | .giveBack value pos => do
    if !(← Exec.inFunction) then Exec.raise .returnOutsideFunction pos
    let v ← match value with
      | some e => eval call e
      | none => pure .nothing
    s.recordValue v (.giveBack <| some ·)
    return .returned v
  | .leaveLoop pos => do
    if (← Exec.loopDepth) = 0 then Exec.raise .breakOutsideLoop pos
    s.record none .leaveLoop
    return .broke
  | .nextIteration pos => do
    if (← Exec.loopDepth) = 0 then Exec.raise (.continueOutsideLoop "continue") pos
    s.record none .nextIteration
    return .continued

/-- Runs statements up to the first that does not end normally. -/
def execAll (call : Caller W) : List Stmt → Exec W Completion
  | [] => pure .normal
  | s :: rest => do
    match ← exec call s with
    | .normal => execAll call rest
    | other => pure other

end

/-- Arguments are passed as they are, so that a function can change its caller's collections. -/
def pass (v : Value) : Exec W Value :=
  pure v

def Program.functions (program : Program) : List (Function Stmt) :=
  program.filterMap Stmt.function?

def Program.statements (program : Program) : List Stmt :=
  program.filter fun s => s.function?.isNone

/-- Names that no function of a program may have. -/
def builtinNames : List String := ["console"]

def caller (functions : List (Function Stmt)) : Caller W :=
  Exec.callFunction functions pass exec callLimit

/-- Registers the functions of a program, wherever they stand, then runs its other statements. What
it gives is how to call a function afterwards. -/
def Program.run (program : Program) : Exec W (Caller W) := do
  let offered := (← get).functions
  let taken (name : String) : Bool :=
    builtinNames.contains name || (Exec.hostFunction? offered name).isSome
  match Exec.hoist taken [] program.functions with
  | .error failure => throw failure
  | .ok functions =>
    Exec.runAll (exec (caller functions)) program.statements
    return caller functions

end Walkthrough.JavaScript
