import Walkthrough.Proofs.Accounts
import Walkthrough.Proofs.JavaScriptTrees

/-! The JavaScript subset keeps to an account if the nodes of the program do. Stores are reached
only from assignments and updates, and what these write to is a name, a member or an element; so a
target that cannot be modified is found at a member or an element only. -/

namespace Walkthrough.JavaScript

variable {W : Type}

namespace Expr

/-- The expression puts a value somewhere. -/
def stores : Expr → Bool
  | .assignment .. => true
  | .update .. => true
  | _ => false

/-- The expression stands for a part of an object or array. -/
def isElement : Expr → Bool
  | .member .. => true
  | .index .. => true
  | _ => false

/-- Whatever the node itself does is in the account. -/
structure Keeps (A : Account W) (e : Expr) : Prop where
  sound : e.isSound = true
  reports : A.Reports e.pos
  writes : e.isElement = true → A.raises ⟨.targetNotModifiable, e.pos⟩

end Expr

namespace Stmt

/-- What the frames of a statement tell when it succeeds. -/
def Tells : Stmt → Step → Prop
  | .declare _ name _ _, .declare told _ => told = name
  | .expression (.call callee _ _) _, .log _ => callee.dottedName? = some consoleLog
  | .expression (.call callee _ _) _, .call told _ _ => told = callee.dottedName?.getD ""
  | .expression e _, .assign .. => e.stores = true
  | .expression e _, .expression _ => e.stores = false
  | .conditional .., .condition kind _ => kind = "if"
  | .whileLoop .., .condition kind _ => kind = "while"
  | .forLoop .., .condition kind _ => kind = "for"
  | .forOf _ name _ _ _, .visit told _ _ => told = name
  | .forOf .., .skippedLoop kind => kind = "for...of"
  | .giveBack .., .giveBack _ => True
  | .leaveLoop _, .leaveLoop => True
  | .nextIteration _, .nextIteration => True
  | _, _ => False

/-- Whatever the statement itself does, without those inside it, is in the account. -/
structure Keeps (A : Account W) (s : Stmt) : Prop where
  plain : s.function? = none
  own : ∀ e ∈ s.own, ∀ node ∈ e.nodes, node.Keeps A
  reports : A.Reports s.pos
  records : ∀ value step, s.Tells step → A.Records s.pos s.kind value step

end Stmt

open Account

section Expressions

variable {A : Account W} {call : Caller W} {pos : Position}

theorem conditionAt_keeps (v : Value) (reports : A.Reports pos) :
    A.Holds (conditionAt v pos) any :=
  andThen features fun f _ => orReport reports (v.condition_fails f.truthiness)

theorem arithmeticAt_keeps (op : ArithmeticOp) (left right : Value) (reports : A.Reports pos) :
    A.Holds (arithmeticAt op left right pos) any :=
  andThen features fun f _ => andThen heap fun h _ =>
    orReport reports (Value.arithmetic_fails h op left right f.coercion)

theorem callNamed_keeps (calls : A.Calls call) (callee : Expr) (args : List Value)
    (reports : A.Reports pos) : A.Holds (callNamed call callee args pos) any := by
  unfold callNamed
  split
  · exact calls _ args pos reports
  · exact raise (reports (.functionNotFound "(anonymous)") trivial)

section Stores

variable {read : Exec W Value} {write : Value → Exec W String} (reports : A.Reports pos)
  (hr : A.Holds read any) (hw : ∀ v, A.Holds (write v) any)
include reports hr hw

theorem assignWith_keeps {value : Exec W Value} (op : AssignOp) (hv : A.Holds value any) :
    A.Holds (assignWith op value read write pos) any := by
  have written (v : Value) := andThen (hw v) fun name _ =>
    give (A := A) (a := Stored.mk v v name) (Q := any) trivial
  refine andThen hv fun v _ => ?_
  cases op with
  | assign => exact written v
  | add | subtract | multiply | divide =>
      refine andThen hr fun current _ => ?_
      exact andThen (arithmeticAt_keeps _ current v reports) fun v _ => written v

theorem updateWith_keeps (op : UpdateOp) (before : Bool) :
    A.Holds (updateWith op before read write pos) any := by
  refine andThen hr fun current _ => ?_
  refine andThen (arithmeticAt_keeps op.arithmetic current _ reports) fun stored _ => ?_
  exact andThen (hw stored) fun name _ => give trivial

end Stores

/-- Lines may be written to the console at any time. -/
def Writes (A : Account W) : Prop :=
  ∀ (m : Machine W) (output : String), A.leads m { m with host := m.host.log output }

theorem log_keeps (writes : Writes A) (output : String) : A.Holds (Exec.log output) any :=
  fun m => ⟨writes m output, trivial⟩

mutual

theorem eval_keeps (writes : Writes A) (calls : A.Calls call) :
    ∀ e : Expr, (∀ node ∈ e.nodes, node.Keeps A) → A.Holds (eval call e) any
  | .literal value pos, _ => by
      rw [eval]
      exact give trivial
  | .name name pos, nodes => by
      rw [eval]
      obtain ⟨here, -⟩ := List.forall_mem_cons.mp nodes
      exact readName name here.reports
  | .array elements pos, nodes => by
      rw [eval]
      obtain ⟨-, inside⟩ := List.forall_mem_cons.mp nodes
      exact andThen (evalAll_keeps writes calls elements inside) fun _ _ => newList _
  | .object properties pos, nodes => by
      rw [eval]
      obtain ⟨-, inside⟩ := List.forall_mem_cons.mp nodes
      exact andThen (evalEntries_keeps writes calls properties [] inside) fun _ _ => newDict _
  | .unary op operand pos, nodes => by
      rw [eval]
      obtain ⟨here, inside⟩ := List.forall_mem_cons.mp nodes
      refine andThen (eval_keeps writes calls operand inside) fun v _ => ?_
      refine andThen features fun f _ => ?_
      exact orReport here.reports (unary_fails f v op)
  | .binary op left right pos, nodes => by
      rw [eval]
      obtain ⟨here, inside⟩ := List.forall_mem_cons.mp nodes
      obtain ⟨first, second⟩ := List.forall_mem_append.mp inside
      refine andThen (eval_keeps writes calls left first) fun x _ => ?_
      refine andThen (eval_keeps writes calls right second) fun y _ => ?_
      refine andThen features fun f _ => ?_
      exact andThen heap fun h _ => orReport here.reports (binary_fails h f x y op)
  | .logical op left right pos, nodes => by
      rw [eval]
      obtain ⟨here, inside⟩ := List.forall_mem_cons.mp nodes
      obtain ⟨first, second⟩ := List.forall_mem_append.mp inside
      refine andThen (eval_keeps writes calls left first) fun x _ => ?_
      refine andThen (conditionAt_keeps x here.reports) fun settled _ => ?_
      split
      · exact give trivial
      · refine andThen (eval_keeps writes calls right second) fun y _ => ?_
        exact andThen (conditionAt_keeps y here.reports) fun _ _ => give trivial
  | .conditional test onTrue onFalse pos, nodes => by
      rw [eval]
      obtain ⟨here, inside⟩ := List.forall_mem_cons.mp nodes
      obtain ⟨first, others⟩ := List.forall_mem_append.mp inside
      obtain ⟨second, third⟩ := List.forall_mem_append.mp others
      refine andThen (eval_keeps writes calls test first) fun v _ => ?_
      refine andThen (conditionAt_keeps v here.reports) fun holds _ => ?_
      split
      · exact eval_keeps writes calls onTrue second
      · exact eval_keeps writes calls onFalse third
  | .assignment op target value pos, nodes => by
      rw [eval]
      obtain ⟨here, inside⟩ := List.forall_mem_cons.mp nodes
      obtain ⟨first, second⟩ := List.forall_mem_append.mp inside
      have written := store_keeps writes calls target here.sound first
      exact andThen (assignWith_keeps here.reports (eval_keeps writes calls target first) written op
        (eval_keeps writes calls value second)) fun _ _ => give trivial
  | .update op before target pos, nodes => by
      rw [eval]
      obtain ⟨here, inside⟩ := List.forall_mem_cons.mp nodes
      exact andThen (updateWith_keeps here.reports (eval_keeps writes calls target inside)
        (store_keeps writes calls target here.sound inside) op before) fun _ _ => give trivial
  | .call callee args pos, nodes => by
      rw [eval]
      obtain ⟨here, inside⟩ := List.forall_mem_cons.mp nodes
      obtain ⟨-, inArgs⟩ := List.forall_mem_append.mp inside
      refine andThen (evalAll_keeps writes calls args inArgs) fun values _ => ?_
      split
      · refine andThen heap fun h _ => ?_
        exact andThen (log_keeps writes _) fun _ _ => give trivial
      · exact callNamed_keeps calls callee values here.reports
  | .member object property pos, nodes => by
      rw [eval]
      obtain ⟨here, inside⟩ := List.forall_mem_cons.mp nodes
      refine andThen (eval_keeps writes calls object inside) fun v _ => andThen heap fun h _ => ?_
      exact orReport here.reports (readProperty_fails h v property)
  | .index object key pos, nodes => by
      rw [eval]
      obtain ⟨here, inside⟩ := List.forall_mem_cons.mp nodes
      obtain ⟨first, second⟩ := List.forall_mem_append.mp inside
      refine andThen (eval_keeps writes calls object first) fun v _ => ?_
      refine andThen (eval_keeps writes calls key second) fun k _ => andThen heap fun h _ => ?_
      exact orReport here.reports (readElement_fails h v k)
  | .grouping inner pos, nodes => by
      rw [eval]
      obtain ⟨-, inside⟩ := List.forall_mem_cons.mp nodes
      exact eval_keeps writes calls inner inside

theorem evalAll_keeps (writes : Writes A) (calls : A.Calls call) :
    ∀ es : List Expr, (∀ node ∈ Expr.innerAll es, node.Keeps A) → A.Holds (evalAll call es) any
  | [], _ => by
      rw [evalAll]
      exact give trivial
  | e :: rest, nodes => by
      rw [evalAll]
      obtain ⟨first, others⟩ := List.forall_mem_append.mp nodes
      refine andThen (eval_keeps writes calls e first) fun v _ => ?_
      exact andThen (evalAll_keeps writes calls rest others) fun _ _ => give trivial

theorem evalEntries_keeps (writes : Writes A) (calls : A.Calls call) :
    ∀ (es : List (String × Expr)) (found : List (String × Value)),
      (∀ node ∈ Expr.innerEntries es, node.Keeps A) → A.Holds (evalEntries call found es) any
  | [], found, _ => by
      rw [evalEntries]
      exact give trivial
  | (key, e) :: rest, found, nodes => by
      rw [evalEntries]
      obtain ⟨first, others⟩ := List.forall_mem_append.mp nodes
      refine andThen (eval_keeps writes calls e first) fun v _ => ?_
      exact evalEntries_keeps writes calls rest _ others

theorem store_keeps (writes : Writes A) (calls : A.Calls call) :
    ∀ target : Expr, target.isAssignable = true → (∀ node ∈ target.nodes, node.Keeps A) →
      ∀ v, A.Holds (store call target v) any
  | .name name pos, _, nodes, v => by
      unfold store
      obtain ⟨here, -⟩ := List.forall_mem_cons.mp nodes
      exact andThen (assign here.reports name v) fun _ _ => give trivial
  | .member object property pos, _, nodes, v => by
      unfold store
      obtain ⟨here, inside⟩ := List.forall_mem_cons.mp nodes
      refine andThen (eval_keeps writes calls object inside) fun target _ => ?_
      refine andThen heap fun h _ => ?_
      have fails := writeProperty_fails h target property v
      refine andThen (orReportWrite here.reports (here.writes rfl) fails) fun h' _ => ?_
      exact andThen (setHeap h') fun _ _ => give trivial
  | .index object key pos, _, nodes, v => by
      unfold store
      obtain ⟨here, inside⟩ := List.forall_mem_cons.mp nodes
      obtain ⟨first, second⟩ := List.forall_mem_append.mp inside
      refine andThen (eval_keeps writes calls object first) fun target _ => ?_
      refine andThen (eval_keeps writes calls key second) fun k _ => andThen heap fun h _ => ?_
      have fails := writeElement_fails h target k v
      refine andThen (orReportWrite here.reports (here.writes rfl) fails) fun h' _ => ?_
      exact andThen (setHeap h') fun _ _ => andThen heap fun _ _ => give trivial

end

end Expressions

section Statements

variable {A : Account W} {call : Caller W}

section Records

variable {s : Stmt} (keeps : s.Keeps A)
include keeps

theorem record_keeps (value : Option Snapshot) (step : Step) (tells : s.Tells step) :
    A.Holds (s.record value step) any :=
  record keeps.reports (keeps.records value step tells)

theorem recordValue_keeps (v : Value) (step : Snapshot → Step)
    (tells : ∀ shown, s.Tells (step shown)) : A.Holds (s.recordValue v step) any :=
  andThen (freeze v) fun shown _ => record_keeps keeps (some shown) _ (tells shown)

end Records

variable (writes : Writes A)
include writes

theorem runCall_keeps (calls : A.Calls call) {callee : Expr} {args : List Expr}
    {pos place : Position} (keeps : (Stmt.expression (.call callee args pos) place).Keeps A) :
    A.Holds (runCall call (.expression (.call callee args pos) place) callee args pos) any := by
  have nodes := List.forall_mem_singleton.mp keeps.own
  obtain ⟨here, inside⟩ := List.forall_mem_cons.mp nodes
  obtain ⟨-, inArgs⟩ := List.forall_mem_append.mp inside
  refine andThen (evalAll_keeps writes calls args inArgs) fun values _ => ?_
  dsimp only
  split
  · next console =>
      refine andThen heap fun h _ => andThen (log_keeps writes _) fun _ _ => ?_
      refine record_keeps keeps _ (.log _) ?_
      change callee.dottedName? = some consoleLog
      cases named : callee.dottedName? with
      | none =>
          rw [named] at console
          exact absurd console (by decide)
      | some name =>
          rw [named] at console
          exact congrArg some console
  · refine andThen heap fun h _ => ?_
    refine andThen (callNamed_keeps calls callee values here.reports) fun result _ => ?_
    exact recordValue_keeps keeps result (.call (callee.dottedName?.getD "") _ ·) fun _ => rfl

theorem runExpression_keeps (calls : A.Calls call) {e : Expr} {place : Position}
    (keeps : (Stmt.expression e place).Keeps A) :
    A.Holds (runExpression call (.expression e place) e) any := by
  have nodes := List.forall_mem_singleton.mp keeps.own
  cases e with
  | call callee args pos => exact runCall_keeps writes calls keeps
  | assignment op target value pos =>
      obtain ⟨here, inside⟩ := List.forall_mem_cons.mp nodes
      obtain ⟨first, second⟩ := List.forall_mem_append.mp inside
      refine andThen (assignWith_keeps here.reports (eval_keeps writes calls target first)
        (store_keeps writes calls target here.sound first) op
        (eval_keeps writes calls value second)) fun result _ => ?_
      exact recordValue_keeps keeps result.stored (.assign result.name ·) fun _ => rfl
  | update op before target pos =>
      obtain ⟨here, inside⟩ := List.forall_mem_cons.mp nodes
      refine andThen (updateWith_keeps here.reports (eval_keeps writes calls target inside)
        (store_keeps writes calls target here.sound inside) op before) fun result _ => ?_
      exact recordValue_keeps keeps result.stored (.assign result.name ·) fun _ => rfl
  | literal | name | array | object | unary | binary | logical | conditional | member | index
  | grouping =>
      refine andThen (eval_keeps writes calls _ nodes) fun v _ => ?_
      exact recordValue_keeps keeps v .expression fun _ => rfl

theorem runTest_keeps (calls : A.Calls call) {s : Stmt} (keeps : s.Keeps A) (kind : String)
    {test : Expr} (nodes : ∀ node ∈ test.nodes, node.Keeps A)
    (tells : ∀ holds, s.Tells (.condition kind holds)) :
    A.Holds (runTest call s kind test) any := by
  obtain ⟨here, -⟩ := List.forall_mem_cons.mp nodes
  refine andThen (eval_keeps writes calls test nodes) fun v _ => ?_
  refine andThen (conditionAt_keeps v here.reports) fun holds _ => ?_
  exact andThen (recordValue_keeps keeps v _ fun _ => tells holds) fun _ _ => give trivial

section Loops

variable {start : Option Stmt} {test update : Option Expr} {body : Stmt} {pos : Position}
  (calls : A.Calls call) (keeps : (Stmt.forLoop start test update body pos).Keeps A)
include calls keeps

theorem forTest_keeps : A.Holds (match test with
    | some e => runTest call (.forLoop start test update body pos) "for" e
    | none => pure true) any := by
  obtain ⟨tests, -⟩ := List.forall_mem_append.mp keeps.own
  cases test with
  | some e =>
      exact runTest_keeps writes calls keeps "for" (tests e List.mem_cons_self) fun _ => rfl
  | none => exact give trivial

theorem forStep_keeps : A.Holds (match update with
    | some e => do let _ ← eval call e
    | none => pure ()) any := by
  obtain ⟨-, updates⟩ := List.forall_mem_append.mp keeps.own
  cases update with
  | some e =>
      exact andThen (eval_keeps writes calls e (updates e List.mem_cons_self)) fun _ _ =>
        give trivial
  | none => exact give trivial

end Loops

omit writes

mutual

theorem exec_keeps (writes : Writes A) (calls : A.Calls call) :
    ∀ s : Stmt, (∀ t ∈ s :: s.inner, t.Keeps A) → A.Holds (exec call s) any
  | .declare kind name value pos, nodes => by
      unfold exec
      obtain ⟨keeps, -⟩ := List.forall_mem_cons.mp nodes
      have declared (v : Value) := andThen (declare keeps.reports name v kind.isConstant)
        fun _ _ => andThen (recordValue_keeps keeps v (.declare name ·) fun _ => rfl)
          fun _ _ => give (A := A) (a := Completion.normal) (Q := any) trivial
      cases value with
      | some e =>
          have own := List.forall_mem_singleton.mp keeps.own
          exact andThen (eval_keeps writes calls e own) fun v _ => declared v
      | none => exact declared .nothing
  | .expression value pos, nodes => by
      rw [exec]
      obtain ⟨keeps, -⟩ := List.forall_mem_cons.mp nodes
      exact andThen (runExpression_keeps writes calls keeps) fun _ _ => give trivial
  | .block body pos, nodes => by
      rw [exec]
      obtain ⟨-, inside⟩ := List.forall_mem_cons.mp nodes
      exact inBlock (execAll_keeps writes calls body inside)
  | .conditional test onTrue onFalse pos, nodes => by
      unfold exec
      obtain ⟨keeps, inside⟩ := List.forall_mem_cons.mp nodes
      have own := List.forall_mem_singleton.mp keeps.own
      refine andThen (runTest_keeps writes calls keeps "if" own fun _ => rfl) fun holds _ => ?_
      cases onFalse with
      | none =>
          obtain ⟨first, -⟩ := List.forall_mem_append.mp inside
          split
          · exact exec_keeps writes calls onTrue first
          · exact give trivial
      | some other =>
          obtain ⟨first, second⟩ := List.forall_mem_append.mp inside
          split
          · exact exec_keeps writes calls onTrue first
          · exact exec_keeps writes calls other second
  | .whileLoop test body pos, nodes => by
      rw [exec]
      obtain ⟨keeps, inside⟩ := List.forall_mem_cons.mp nodes
      have own := List.forall_mem_singleton.mp keeps.own
      refine inLoop (andThen iterationsLeft fun bound _ => ?_)
      exact loopWhile keeps.reports (runTest_keeps writes calls keeps "while" own fun _ => rfl)
        (exec_keeps writes calls body inside) (give trivial) bound
  | .forLoop start test update body pos, nodes => by
      unfold exec
      obtain ⟨keeps, inside⟩ := List.forall_mem_cons.mp nodes
      have loop (inBody : ∀ t ∈ body :: body.inner, t.Keeps A) (bound : Nat) :=
        loopWhile keeps.reports (forTest_keeps writes calls keeps)
          (exec_keeps writes calls body inBody) (forStep_keeps writes calls keeps) bound
      cases start with
      | some first =>
          obtain ⟨inStart, inBody⟩ := List.forall_mem_append.mp inside
          refine inBlock (andThen (exec_keeps writes calls first inStart) fun _ _ => ?_)
          exact inLoop (andThen iterationsLeft fun bound _ => loop inBody bound)
      | none => exact inBlock (inLoop (andThen iterationsLeft fun bound _ => loop inside bound))
  | .forOf kind name iterable body pos, nodes => by
      rw [exec]
      obtain ⟨keeps, inside⟩ := List.forall_mem_cons.mp nodes
      have own := List.forall_mem_singleton.mp keeps.own
      refine andThen (eval_keeps writes calls iterable own) fun v _ => andThen heap fun h _ => ?_
      split
      · exact raise (keeps.reports _ trivial)
      · exact andThen (record_keeps keeps none (.skippedLoop "for...of") rfl) fun _ _ =>
          give trivial
      · refine inLoop (loopOver (fun (item, round) => ?_) _)
        refine inRound keeps.reports ?_ (exec_keeps writes calls body inside)
        refine andThen (declare keeps.reports name item kind.isConstant) fun _ _ => ?_
        exact recordValue_keeps keeps item (.visit name · round) fun _ => rfl
  | .function name params body pos, nodes => by
      obtain ⟨keeps, -⟩ := List.forall_mem_cons.mp nodes
      cases keeps.plain
  | .giveBack value pos, nodes => by
      rw [exec]
      obtain ⟨keeps, -⟩ := List.forall_mem_cons.mp nodes
      have recorded (v : Value) := andThen
        (recordValue_keeps keeps v (.giveBack <| some ·) fun _ => trivial) fun _ _ =>
          give (A := A) (a := Completion.returned v) (Q := any) trivial
      refine andThen inFunction fun inside _ => ?_
      refine unlessRaised (keeps.reports .returnOutsideFunction trivial) ?_
      cases value with
      | some e =>
          have own := List.forall_mem_singleton.mp keeps.own
          exact andThen (eval_keeps writes calls e own) fun v _ => recorded v
      | none => exact recorded .nothing
  | .leaveLoop pos, nodes => by
      rw [exec]
      obtain ⟨keeps, -⟩ := List.forall_mem_cons.mp nodes
      refine andThen loopDepth fun depth _ => ?_
      refine unlessRaised (keeps.reports .breakOutsideLoop trivial) ?_
      exact andThen (record_keeps keeps none .leaveLoop trivial) fun _ _ => give trivial
  | .nextIteration pos, nodes => by
      rw [exec]
      obtain ⟨keeps, -⟩ := List.forall_mem_cons.mp nodes
      refine andThen loopDepth fun depth _ => ?_
      refine unlessRaised (keeps.reports (.continueOutsideLoop "continue") trivial) ?_
      exact andThen (record_keeps keeps none .nextIteration trivial) fun _ _ => give trivial

theorem execAll_keeps (writes : Writes A) (calls : A.Calls call) :
    ∀ body : List Stmt, (∀ t ∈ Stmt.innerAll body, t.Keeps A) → A.Holds (execAll call body) any
  | [], _ => by
      rw [execAll]
      exact give trivial
  | s :: rest, nodes => by
      rw [execAll]
      obtain ⟨first, others⟩ := List.forall_mem_append.mp nodes
      refine andThen (exec_keeps writes calls s first) fun c _ => ?_
      split
      · exact execAll_keeps writes calls rest others
      · exact give trivial

end

end Statements

/-- Every node of the program is in the account; a function that it declares may be refused. -/
structure Program.Keeps (A : Account W) (program : Program) : Prop where
  declares : ∀ f ∈ program.functions, A.Reports f.position
  bodies : ∀ f ∈ program.functions, ∀ t ∈ Stmt.innerAll f.body, t.Keeps A
  statements : ∀ s ∈ program.statements, ∀ t ∈ s :: s.inner, t.Keeps A

theorem mem_innerAll {s t : Stmt} {body : List Stmt} (member : s ∈ body)
    (inside : t ∈ s :: s.inner) : t ∈ Stmt.innerAll body := by
  induction body with
  | nil => cases member
  | cons first rest ih =>
      rcases List.mem_cons.mp member with rfl | behind
      · exact List.mem_append_left _ inside
      · exact List.mem_append_right _ (ih behind)

/-- In a program that is formed well, it is enough to look at the nodes that run. -/
theorem keeps_of_nodes {A : Account W} {fits : Position → Prop} {program : Program}
    (formed : ∀ s ∈ program, s.Formed fits true)
    (declares : ∀ s ∈ Stmt.innerAll program, A.Reports s.pos)
    (node : ∀ s ∈ Stmt.innerAll program, s.Fits fits → s.function? = none → s.Keeps A) :
    program.Keeps A := by
  refine ⟨fun f declared => ?_, fun f declared t inside => ?_, fun s runs t inside => ?_⟩
  · obtain ⟨s, member, made⟩ := List.mem_filterMap.mp declared
    have place : s.pos = f.position := by
      cases s <;> cases made
      rfl
    rw [← place]
    exact declares s (mem_innerAll member List.mem_cons_self)
  · obtain ⟨s, member, made⟩ := List.mem_filterMap.mp declared
    have within : t ∈ s.inner := by
      cases s <;> cases made
      exact inside
    obtain ⟨here, plain⟩ := (formed s member).inside t within
    exact node t (mem_innerAll member (List.mem_cons_of_mem s within)) here plain
  · obtain ⟨member, plain⟩ := List.mem_filter.mp runs
    have here := mem_innerAll member inside
    rcases List.mem_cons.mp inside with rfl | within
    · exact node t here (formed t member).here (Option.isNone_iff_eq_none.mp plain)
    · obtain ⟨fits, plain⟩ := (formed s member).inside t within
      exact node t here fits plain

theorem run_keeps {A : Account W} (writes : Writes A) {program : Program}
    (keeps : program.Keeps A) : A.Holds program.run A.Calls := by
  have calls : A.Calls (caller program.functions) := by
    refine callFunction (fun v => give trivial) (fun call calls f member s inside => ?_) callLimit
    refine exec_keeps writes calls s fun t within => ?_
    exact keeps.bodies f member t (mem_innerAll inside within)
  refine andThen offered fun m _ => ?_
  dsimp only
  obtain all | ⟨f, member, fault, common, refused⟩ :=
    hoist_cases (fun name => builtinNames.contains name ||
      (Exec.hostFunction? m.functions name).isSome) [] program.functions
  · rw [all]
    refine andThen (runAll fun s member => ?_) fun _ _ => give calls
    exact exec_keeps writes calls s (keeps.statements s member)
  · rw [refused]
    exact raise (keeps.declares f member fault common)

end Walkthrough.JavaScript
