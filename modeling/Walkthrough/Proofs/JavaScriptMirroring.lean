import Walkthrough.Proofs.Mirroring

/-! The JavaScript subset under two hosts that it cannot tell apart. Stores stand inside its
expressions, and are mirrored with them. -/

namespace Walkthrough.JavaScript

variable {W W' : Type} {M : Mirroring W W'} {call : Caller W} {call' : Caller W'}

open Mirroring

theorem conditionAt_mirrors (v : Value) (pos : Position) :
    M.Mirrors (conditionAt v pos) (conditionAt v pos) :=
  andThen features fun f => orRaise pos (v.condition f.truthiness)

theorem arithmeticAt_mirrors (op : ArithmeticOp) (left right : Value) (pos : Position) :
    M.Mirrors (arithmeticAt op left right pos) (arithmeticAt op left right pos) :=
  andThen features fun _ => andThen heap fun _ => orRaise pos _

theorem callNamed_mirrors (calls : M.Calls call call') (callee : Expr) (args : List Value)
    (pos : Position) :
    M.Mirrors (callNamed call callee args pos) (callNamed call' callee args pos) := by
  unfold callNamed
  cases callee.dottedName? with
  | some name => exact calls name args pos
  | none => exact raise _ pos

section Stores

variable {read : Exec W Value} {read' : Exec W' Value} {write : Value → Exec W String}
  {write' : Value → Exec W' String} (hr : M.Mirrors read read')
  (hw : ∀ v, M.Mirrors (write v) (write' v)) (pos : Position)
include hr hw

theorem assignWith_mirrors {value : Exec W Value} {value' : Exec W' Value}
    (hv : M.Mirrors value value') (op : AssignOp) :
    M.Mirrors (assignWith op value read write pos) (assignWith op value' read' write' pos) := by
  refine andThen hv fun v => ?_
  cases op with
  | assign => exact andThen (give v) fun stored => andThen (hw stored) fun name => give _
  | add | subtract | multiply | divide =>
      exact andThen hr fun current => andThen (arithmeticAt_mirrors _ current v pos) fun stored =>
        andThen (hw stored) fun name => give _

theorem updateWith_mirrors (op : UpdateOp) (before : Bool) :
    M.Mirrors (updateWith op before read write pos) (updateWith op before read' write' pos) := by
  refine andThen hr fun current => ?_
  refine andThen (arithmeticAt_mirrors op.arithmetic current (.number 1.0) pos) fun stored => ?_
  exact andThen (hw stored) fun name => give _

end Stores

mutual

theorem eval_mirrors (calls : M.Calls call call') :
    ∀ e : Expr, M.Mirrors (eval call e) (eval call' e)
  | .literal value pos => by
      rw [eval, eval]
      exact give _
  | .name name pos => by
      rw [eval, eval]
      exact readName name pos
  | .array elements pos => by
      rw [eval, eval]
      exact andThen (evalAll_mirrors calls elements) newList
  | .object properties pos => by
      rw [eval, eval]
      exact andThen (evalEntries_mirrors calls [] properties) newDict
  | .unary op operand pos => by
      rw [eval, eval]
      exact andThen (eval_mirrors calls operand) fun v => andThen features fun f => orRaise pos _
  | .binary op left right pos => by
      rw [eval, eval]
      exact andThen (eval_mirrors calls left) fun x => andThen (eval_mirrors calls right) fun y =>
        andThen features fun f => andThen heap fun h => orRaise pos _
  | .logical op left right pos => by
      rw [eval, eval]
      refine andThen (eval_mirrors calls left) fun x => ?_
      refine andThen (conditionAt_mirrors x pos) fun holds => branch _ (give _) ?_
      exact andThen (eval_mirrors calls right) fun y =>
        andThen (conditionAt_mirrors y pos) fun _ => give _
  | .conditional test onTrue onFalse pos => by
      rw [eval, eval]
      refine andThen (eval_mirrors calls test) fun v => ?_
      exact andThen (conditionAt_mirrors v pos) fun holds =>
        branch holds (eval_mirrors calls onTrue) (eval_mirrors calls onFalse)
  | .assignment op target value pos => by
      rw [eval, eval]
      have stored := assignWith_mirrors (eval_mirrors calls target) (store_mirrors calls target) pos
        (eval_mirrors calls value) op
      exact andThen stored fun result => give _
  | .update op before target pos => by
      rw [eval, eval]
      have stored := updateWith_mirrors (eval_mirrors calls target) (store_mirrors calls target) pos
        op before
      exact andThen stored fun result => give _
  | .call callee args pos => by
      rw [eval, eval]
      refine andThen (evalAll_mirrors calls args) fun values => ?_
      by_cases console : callee.dottedName? = some consoleLog
      · rw [if_pos console, if_pos console]
        exact andThen heap fun h => andThen (log _) fun _ => give _
      · rw [if_neg console, if_neg console]
        exact callNamed_mirrors calls callee values pos
  | .member object property pos => by
      rw [eval, eval]
      exact andThen (eval_mirrors calls object) fun v => andThen heap fun h => orRaise pos _
  | .index object key pos => by
      rw [eval, eval]
      exact andThen (eval_mirrors calls object) fun v => andThen (eval_mirrors calls key) fun k =>
        andThen heap fun h => orRaise pos _
  | .grouping inner pos => by
      rw [eval, eval]
      exact eval_mirrors calls inner

theorem evalAll_mirrors (calls : M.Calls call call') :
    ∀ es : List Expr, M.Mirrors (evalAll call es) (evalAll call' es)
  | [] => by
      rw [evalAll, evalAll]
      exact give []
  | e :: rest => by
      rw [evalAll, evalAll]
      exact andThen (eval_mirrors calls e) fun v =>
        andThen (evalAll_mirrors calls rest) fun vs => give (v :: vs)

theorem evalEntries_mirrors (calls : M.Calls call call') (found : List (String × Value)) :
    ∀ es : List (String × Expr), M.Mirrors (evalEntries call found es) (evalEntries call' found es)
  | [] => by
      rw [evalEntries, evalEntries]
      exact give found
  | (key, e) :: rest => by
      rw [evalEntries, evalEntries]
      exact andThen (eval_mirrors calls e) fun v =>
        evalEntries_mirrors calls (putEntry key v found) rest

theorem store_mirrors (calls : M.Calls call call') (target : Expr) (value : Value) :
    M.Mirrors (store call target value) (store call' target value) := by
  cases target with
  | name name pos =>
      rw [store, store]
      exact andThen (assign name value pos) fun _ => give name
  | member object property pos =>
      rw [store, store]
      exact andThen (eval_mirrors calls object) fun v => andThen heap fun h =>
        andThen (orRaise pos _) fun h' => andThen (setHeap h') fun _ => give _
  | index object key pos =>
      rw [store, store]
      refine andThen (eval_mirrors calls object) fun v => ?_
      refine andThen (eval_mirrors calls key) fun k => andThen heap fun h => ?_
      refine andThen (orRaise pos _) fun h' => andThen (setHeap h') fun _ => ?_
      exact andThen heap fun h => give _
  | literal | array | object | unary | binary | logical | conditional | assignment | update | call
    | grouping =>
      unfold store
      exact raise _ _

end

theorem recordValue_mirrors (s : Stmt) (value : Value) (step : Snapshot → Step) :
    M.Mirrors (s.recordValue value step) (s.recordValue value step) :=
  andThen (freeze value) fun frozen => record s.pos s.kind (some frozen) (step frozen)

theorem runCall_mirrors (calls : M.Calls call call') (s : Stmt) (callee : Expr) (args : List Expr)
    (pos : Position) :
    M.Mirrors (runCall call s callee args pos) (runCall call' s callee args pos) := by
  refine andThen (evalAll_mirrors calls args) fun values => ?_
  dsimp only
  by_cases console : callee.dottedName?.getD "" = consoleLog
  · rw [if_pos console, if_pos console]
    exact andThen heap fun h => andThen (log _) fun _ => record _ _ _ _
  · rw [if_neg console, if_neg console]
    exact andThen heap fun h => andThen (callNamed_mirrors calls callee values pos) fun result =>
      recordValue_mirrors s result _

theorem runExpression_mirrors (calls : M.Calls call call') (s : Stmt) (e : Expr) :
    M.Mirrors (runExpression call s e) (runExpression call' s e) := by
  cases e with
  | call callee args pos => exact runCall_mirrors calls s callee args pos
  | assignment op target value pos =>
      have stored := assignWith_mirrors (eval_mirrors calls target) (store_mirrors calls target) pos
        (eval_mirrors calls value) op
      exact andThen stored fun result => recordValue_mirrors s result.stored _
  | update op before target pos =>
      have stored := updateWith_mirrors (eval_mirrors calls target) (store_mirrors calls target) pos
        op before
      exact andThen stored fun result => recordValue_mirrors s result.stored _
  | literal | name | array | object | unary | binary | logical | conditional | member | index
    | grouping =>
      exact andThen (eval_mirrors calls _) fun v => recordValue_mirrors s v _

theorem runTest_mirrors (calls : M.Calls call call') (s : Stmt) (kind : String) (test : Expr) :
    M.Mirrors (runTest call s kind test) (runTest call' s kind test) :=
  andThen (eval_mirrors calls test) fun v => andThen (conditionAt_mirrors v test.pos) fun holds =>
    andThen (recordValue_mirrors s v _) fun _ => give holds

mutual

theorem exec_mirrors (calls : M.Calls call call') :
    ∀ s : Stmt, M.Mirrors (exec call s) (exec call' s)
  | .declare kind name value pos => by
      unfold exec
      have declared (v : Value) := andThen (M := M) (declare name v kind.isConstant pos) fun _ =>
        andThen (recordValue_mirrors (.declare kind name value pos) v (.declare name ·)) fun _ =>
          give Completion.normal
      cases value with
      | some e => exact andThen (eval_mirrors calls e) declared
      | none => exact declared .nothing
  | .expression value pos => by
      rw [exec, exec]
      exact andThen (runExpression_mirrors calls _ value) fun _ => give _
  | .block body pos => by
      rw [exec, exec]
      exact inBlock (execAll_mirrors calls body)
  | .conditional test onTrue onFalse pos => by
      unfold exec
      refine andThen (runTest_mirrors calls _ "if" test) fun holds => ?_
      refine branch holds (exec_mirrors calls onTrue) ?_
      match onFalse with
      | some other => exact exec_mirrors calls other
      | none => exact give _
  | .whileLoop test body pos => by
      rw [exec, exec]
      exact inLoop (andThen iterationsLeft fun bound => loopWhile pos
        (runTest_mirrors calls _ "while" test) (exec_mirrors calls body) (give ()) bound)
  | .forLoop start test update body pos => by
      unfold exec
      refine inBlock ?_
      have loop : M.Mirrors
          (Exec.inLoop (Exec.iterationsLeft >>= Exec.loopWhile pos
            (match test with
              | some e => runTest call (.forLoop start test update body pos) "for" e
              | none => pure true)
            (exec call body)
            (match update with
              | some e => do let _ ← eval call e
              | none => pure ())))
          (Exec.inLoop (Exec.iterationsLeft >>= Exec.loopWhile pos
            (match test with
              | some e => runTest call' (.forLoop start test update body pos) "for" e
              | none => pure true)
            (exec call' body)
            (match update with
              | some e => do let _ ← eval call' e
              | none => pure ()))) := by
        refine inLoop (andThen iterationsLeft (loopWhile pos ?_ (exec_mirrors calls body) ?_))
        · cases test with
          | some e => exact runTest_mirrors calls _ "for" e
          | none => exact give true
        · cases update with
          | some e => exact andThen (eval_mirrors calls e) fun _ => give ()
          | none => exact give ()
      match start with
      | some first => exact andThen (exec_mirrors calls first) fun _ => loop
      | none => exact loop
  | .forOf kind name iterable body pos => by
      rw [exec, exec]
      refine andThen (eval_mirrors calls iterable) fun v => andThen heap fun h => ?_
      match Exec.iterable? h v with
      | none => exact raise _ pos
      | some [] => exact andThen (record _ _ _ _) fun _ => give _
      | some (first :: rest) =>
          refine inLoop (loopOver (fun (item, round) => ?_) _)
          refine inRound pos ?_ (exec_mirrors calls body)
          exact andThen (declare name item kind.isConstant pos) fun _ =>
            recordValue_mirrors _ item _
  | .function name params body pos => by
      rw [exec, exec]
      exact raise _ pos
  | .giveBack value pos => by
      rw [exec, exec]
      refine andThen inFunction fun inside => unlessRaised _ pos ?_
      have recorded (v : Value) := andThen (M := M)
        (recordValue_mirrors (.giveBack value pos) v (.giveBack <| some ·)) fun _ =>
          give (Completion.returned v)
      cases value with
      | some e => exact andThen (eval_mirrors calls e) recorded
      | none => exact recorded .nothing
  | .leaveLoop pos => by
      rw [exec, exec]
      exact andThen loopDepth fun depth => unlessRaised _ pos
        (andThen (record _ _ _ _) fun _ => give _)
  | .nextIteration pos => by
      rw [exec, exec]
      exact andThen loopDepth fun depth => unlessRaised _ pos
        (andThen (record _ _ _ _) fun _ => give _)

theorem execAll_mirrors (calls : M.Calls call call') :
    ∀ body : List Stmt, M.Mirrors (execAll call body) (execAll call' body)
  | [] => by
      rw [execAll, execAll]
      exact give _
  | s :: rest => by
      rw [execAll, execAll]
      refine andThen (exec_mirrors calls s) fun c => ?_
      cases c with
      | normal => exact execAll_mirrors calls rest
      | broke | continued | returned _ => exact give _

end

theorem taken_other (functions : List (HostFunction W)) :
    taken (functions.map M.other) = taken functions := by
  funext name
  unfold taken
  rw [hostFunction?_map, Option.isSome_map]

/-- A program does the same under both hosts. -/
theorem Program.run_mirrors (program : Program) : M.Leads program.run program.run :=
  leads_of_apply program.run_apply program.run_apply taken_other fun names =>
    runDeclared names Stmt.function? give (fun _ _ calls => exec_mirrors calls) program

end Walkthrough.JavaScript
