import Walkthrough.Proofs.Mirroring

/-! JikiScript under two hosts that it cannot tell apart: every expression, statement and program
does the same under both. -/

namespace Walkthrough.JikiScript

variable {W W' : Type} {M : Mirroring W W'} {call : Caller W} {call' : Caller W'}

open Mirroring

theorem conditionAt_mirrors (v : Value) (pos : Position) :
    M.Mirrors (conditionAt v pos) (conditionAt v pos) :=
  andThen (andThen features fun f => give (v.condition f.truthiness)) (orRaise pos)

mutual

theorem eval_mirrors (calls : M.Calls call call') :
    ∀ e : Expr, M.Mirrors (eval call e) (eval call' e)
  | .literal value pos => by
      rw [eval, eval]
      exact give _
  | .name name pos => by
      rw [eval, eval]
      exact readName name pos
  | .list elements pos => by
      rw [eval, eval]
      exact andThen (evalAll_mirrors calls elements) newList
  | .dictionary entries pos => by
      rw [eval, eval]
      exact andThen (evalEntries_mirrors calls [] entries) newDict
  | .unary op operand pos => by
      rw [eval, eval]
      exact andThen (eval_mirrors calls operand) fun v =>
        andThen heap fun h => andThen features fun f => orRaise pos _
  | .binary op left right pos => by
      rw [eval, eval]
      exact andThen (eval_mirrors calls left) fun x => andThen (eval_mirrors calls right) fun y =>
        andThen heap fun h => orRaise pos _
  | .logical op left right pos => by
      rw [eval, eval]
      refine andThen (eval_mirrors calls left) fun x => ?_
      refine andThen (conditionAt_mirrors x pos) fun holds => branch _ (give _) ?_
      exact andThen (eval_mirrors calls right) fun y =>
        andThen (conditionAt_mirrors y pos) fun b => give _
  | .grouping inner pos => by
      rw [eval, eval]
      exact eval_mirrors calls inner
  | .call callee args pos => by
      rw [eval, eval]
      exact andThen (evalAll_mirrors calls args) fun values => calls callee values pos
  | .index object key pos => by
      rw [eval, eval]
      exact andThen (eval_mirrors calls object) fun v => andThen (eval_mirrors calls key) fun k =>
        andThen heap fun h => orRaise pos _

theorem evalAll_mirrors (calls : M.Calls call call') :
    ∀ es : List Expr, M.Mirrors (evalAll call es) (evalAll call' es)
  | [] => by
      rw [evalAll, evalAll]
      exact give []
  | e :: rest => by
      rw [evalAll, evalAll]
      exact andThen (eval_mirrors calls e) fun v =>
        andThen (evalAll_mirrors calls rest) fun vs => give (v :: vs)

theorem evalEntries_mirrors (calls : M.Calls call call') (found : List (String × Value)) :
    ∀ es : List (String × Expr), M.Mirrors (evalEntries call found es) (evalEntries call' found es)
  | [] => by
      rw [evalEntries, evalEntries]
      exact give found
  | (key, e) :: rest => by
      rw [evalEntries, evalEntries]
      exact andThen (eval_mirrors calls e) fun v =>
        evalEntries_mirrors calls (putEntry key v found) rest

end

theorem recordValue_mirrors (s : Stmt) (value : Value) (step : Snapshot → Step) :
    M.Mirrors (s.recordValue value step) (s.recordValue value step) :=
  andThen (freeze value) fun frozen => record s.pos s.kind (some frozen) (step frozen)

theorem runCall_mirrors (calls : M.Calls call call') (s : Stmt) (callee : String)
    (args : List Expr) (pos : Position) :
    M.Mirrors (runCall call s callee args pos) (runCall call' s callee args pos) :=
  andThen (evalAll_mirrors calls args) fun values => andThen heap fun _ =>
    andThen (calls callee values pos) fun result => recordValue_mirrors s result _

mutual

theorem exec_mirrors (calls : M.Calls call call') :
    ∀ s : Stmt, M.Mirrors (exec call s) (exec call' s)
  | .set name value pos => by
      rw [exec, exec]
      exact andThen (eval_mirrors calls value) fun v => andThen (declare name v false pos) fun _ =>
        andThen (recordValue_mirrors _ v _) fun _ => give _
  | .change name value pos => by
      rw [exec, exec]
      exact andThen (eval_mirrors calls value) fun v => andThen (assign name v pos) fun _ =>
        andThen (recordValue_mirrors _ v _) fun _ => give _
  | .changeElement object key value pos => by
      rw [exec, exec]
      refine andThen (eval_mirrors calls object) fun target => ?_
      refine andThen (eval_mirrors calls key) fun k => ?_
      refine andThen (eval_mirrors calls value) fun v => andThen heap fun h => ?_
      refine andThen (orRaise pos _) fun h' => andThen (setHeap h') fun _ => ?_
      exact andThen (freeze k) fun index => andThen (recordValue_mirrors _ v _) fun _ => give _
  | .log value pos => by
      rw [exec, exec]
      exact andThen (eval_mirrors calls value) fun v => andThen heap fun h =>
        andThen (log _) fun _ => andThen (recordValue_mirrors _ v _) fun _ => give _
  | .conditional condition onTrue onFalse pos => by
      unfold exec
      refine andThen (eval_mirrors calls condition) fun v => ?_
      refine andThen (conditionAt_mirrors v pos) fun holds => ?_
      refine andThen (recordValue_mirrors _ v _) fun _ => ?_
      refine branch holds (inBlock (execAll_mirrors calls onTrue)) ?_
      match onFalse with
      | some body => exact inBlock (execAll_mirrors calls body)
      | none => exact give _
  | .repeatTimes count body pos => by
      rw [exec, exec]
      refine andThen (eval_mirrors calls count) fun n => andThen features fun f => ?_
      refine andThen heap fun h => andThen (orRaise count.pos _) fun total => ?_
      by_cases none : total = 0
      · rw [if_pos none, if_pos none]
        exact andThen (record _ _ _ _) fun _ => give _
      · rw [if_neg none, if_neg none]
        refine inLoop (loopTimes (fun round => ?_) 1 total)
        exact inRound pos (record _ _ _ _) (execAll_mirrors calls body)
  | .forEach element iterable body pos => by
      rw [exec, exec]
      refine andThen (eval_mirrors calls iterable) fun v => andThen heap fun h => ?_
      match Exec.iterable? h v with
      | none => exact andThen heap fun _ => raise _ pos
      | some [] => exact andThen (record _ _ _ _) fun _ => give _
      | some (first :: rest) =>
          refine inLoop (loopOver (fun (item, round) => ?_) _)
          refine inRound pos ?_ (execAll_mirrors calls body)
          exact andThen (declare element item false pos) fun _ => recordValue_mirrors _ item _
  | .block body pos => by
      rw [exec, exec]
      exact inBlock (execAll_mirrors calls body)
  | .function name params body pos => by
      rw [exec, exec]
      exact raise _ pos
  | .giveBack value pos => by
      rw [exec, exec]
      refine andThen inFunction fun inside => unlessRaised _ pos ?_
      have recorded (v : Value) := andThen (M := M)
        (recordValue_mirrors (.giveBack value pos) v (.giveBack <| some ·)) fun _ =>
          give (Completion.returned v)
      cases value with
      | some e => exact andThen (eval_mirrors calls e) recorded
      | none => exact recorded .nothing
  | .leaveLoop pos => by
      rw [exec, exec]
      exact andThen loopDepth fun depth => unlessRaised _ pos
        (andThen (record _ _ _ _) fun _ => give _)
  | .nextIteration lexeme pos => by
      rw [exec, exec]
      exact andThen loopDepth fun depth => unlessRaised _ pos
        (andThen (record _ _ _ _) fun _ => give _)
  | .expression value pos => by
      cases value with
      | call callee args callPos =>
          rw [exec, exec]
          exact andThen (runCall_mirrors calls _ callee args callPos) fun _ => give _
      | literal | name | list | dictionary | unary | binary | logical | grouping | index =>
          unfold exec
          exact andThen (eval_mirrors calls _) fun v =>
            andThen (recordValue_mirrors _ v _) fun _ => give _

theorem execAll_mirrors (calls : M.Calls call call') :
    ∀ body : List Stmt, M.Mirrors (execAll call body) (execAll call' body)
  | [] => by
      rw [execAll, execAll]
      exact give _
  | s :: rest => by
      rw [execAll, execAll]
      refine andThen (exec_mirrors calls s) fun c => ?_
      cases c with
      | normal => exact execAll_mirrors calls rest
      | broke | continued | returned _ => exact give _

end

theorem pass_mirrors (v : Value) : M.Mirrors (pass v) (pass v) :=
  aside (fun _ => rfl) (fun _ _ _ => rfl) fun _ => ⟨rfl, rfl, rfl⟩

theorem taken_other (functions : List (HostFunction W)) :
    taken (functions.map M.other) = taken functions := by
  funext name
  unfold taken
  rw [hostFunction?_map, Option.isSome_map]

/-- A program does the same under both hosts. -/
theorem Program.run_mirrors (program : Program) : M.Leads program.run program.run :=
  leads_of_apply program.run_apply program.run_apply taken_other fun names =>
    runDeclared names Stmt.function? pass_mirrors (fun _ _ calls => exec_mirrors calls) program

end Walkthrough.JikiScript
