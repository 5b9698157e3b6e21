import Walkthrough.Proofs.Accounts
import Walkthrough.Proofs.JikiScriptTrees

/-! JikiScript keeps to an account if the nodes of the program do: an expression fails at the place
of a node in it, a statement at its own place or that of one of its expressions, and what is
recorded of a statement is what such a statement tells. A line on the console and the frame of its
statement are one thing, since nothing comes between them. -/

namespace Walkthrough.JikiScript

variable {W : Type}

namespace Stmt

/-- What the frames of a statement tell when it succeeds. -/
def Tells : Stmt → Step → Prop
  | .set name _ _, .declare told _ => told = name
  | .change name _ _, .assign told _ => told = name
  | .changeElement object _ _ _, .changeElement told _ _ => told = rootName object
  | .log .., .log _ => True
  | .conditional .., .condition kind _ => kind = "if"
  | .repeatTimes .., .iterate .. => True
  | .repeatTimes .., .skippedLoop kind => kind = "repeat"
  | .forEach element _ _ _, .visit told _ _ => told = element
  | .forEach .., .skippedLoop kind => kind = "for each"
  | .giveBack .., .giveBack _ => True
  | .leaveLoop _, .leaveLoop => True
  | .nextIteration .., .nextIteration => True
  | .expression (.call callee _ _) _, .call told _ _ => told = callee
  | .expression _ _, .expression _ => True
  | _, _ => False

def isLog : Stmt → Bool
  | .log .. => true
  | _ => false

def changesElement : Stmt → Bool
  | .changeElement .. => true
  | _ => false

end Stmt

/-- Whatever the statement itself does, without those inside it, is in the account. -/
structure Stmt.Keeps (A : Account W) (s : Stmt) : Prop where
  plain : s.function? = none
  own : ∀ e ∈ s.own, e.Stands A.Reports
  reports : A.Reports s.pos
  writes : s.changesElement = true → A.raises ⟨.targetNotModifiable, s.pos⟩
  records : s.isLog = false → ∀ value step, s.Tells step → A.Records s.pos s.kind value step
  logs : s.isLog = true → A.Logs s.pos s.kind

open Account

section Expressions

variable {A : Account W} {call : Caller W}

theorem conditionAt_keeps {pos : Position} (v : Value) (reports : A.Reports pos) :
    A.Holds (conditionAt v pos) any := by
  refine andThen (x := truth v) (Q := FailsCommonly) ?_ fun _ fails => orReport reports fails
  exact andThen features fun f _ => give (v.condition_fails f.truthiness)

mutual

theorem eval_keeps (calls : A.Calls call) :
    ∀ e : Expr, e.Stands A.Reports → A.Holds (eval call e) any
  | .literal value pos, _ => by
      rw [eval]
      exact give trivial
  | .name name pos, stands => by
      rw [eval]
      exact readName name stands.pos
  | .list elements pos, stands => by
      rw [eval]
      obtain ⟨-, inside⟩ := List.forall_mem_cons.mp stands
      exact andThen (evalAll_keeps calls elements inside) fun _ _ => newList _
  | .dictionary entries pos, stands => by
      rw [eval]
      obtain ⟨-, inside⟩ := List.forall_mem_cons.mp stands
      exact andThen (evalEntries_keeps calls entries [] inside) fun _ _ => newDict _
  | .unary op operand pos, stands => by
      rw [eval]
      obtain ⟨here, inside⟩ := List.forall_mem_cons.mp stands
      refine andThen (eval_keeps calls operand inside) fun v _ => ?_
      refine andThen heap fun h _ => andThen features fun f _ => ?_
      exact orReport here (unary_fails h f.truthiness v op)
  | .binary op left right pos, stands => by
      rw [eval]
      obtain ⟨here, inside⟩ := List.forall_mem_cons.mp stands
      obtain ⟨first, second⟩ := List.forall_mem_append.mp inside
      refine andThen (eval_keeps calls left first) fun x _ => ?_
      refine andThen (eval_keeps calls right second) fun y _ => ?_
      exact andThen heap fun h _ => orReport here (binary_fails h x y op)
  | .logical op left right pos, stands => by
      rw [eval]
      obtain ⟨here, inside⟩ := List.forall_mem_cons.mp stands
      obtain ⟨first, second⟩ := List.forall_mem_append.mp inside
      refine andThen (eval_keeps calls left first) fun x _ => ?_
      refine andThen (conditionAt_keeps x here) fun settled _ => ?_
      split
      · exact give trivial
      · refine andThen (eval_keeps calls right second) fun y _ => ?_
        exact andThen (conditionAt_keeps y here) fun _ _ => give trivial
  | .grouping inner pos, stands => by
      rw [eval]
      obtain ⟨-, inside⟩ := List.forall_mem_cons.mp stands
      exact eval_keeps calls inner inside
  | .call callee args pos, stands => by
      rw [eval]
      obtain ⟨here, inside⟩ := List.forall_mem_cons.mp stands
      exact andThen (evalAll_keeps calls args inside) fun values _ => calls callee values pos here
  | .index object key pos, stands => by
      rw [eval]
      obtain ⟨here, inside⟩ := List.forall_mem_cons.mp stands
      obtain ⟨first, second⟩ := List.forall_mem_append.mp inside
      refine andThen (eval_keeps calls object first) fun v _ => ?_
      refine andThen (eval_keeps calls key second) fun k _ => ?_
      exact andThen heap fun h _ => orReport here (readElement_fails h v k)

theorem evalAll_keeps (calls : A.Calls call) :
    ∀ es : List Expr, (∀ node ∈ Expr.innerAll es, A.Reports node.pos) →
      A.Holds (evalAll call es) any
  | [], _ => by
      rw [evalAll]
      exact give trivial
  | e :: rest, stands => by
      rw [evalAll]
      obtain ⟨first, others⟩ := List.forall_mem_append.mp stands
      refine andThen (eval_keeps calls e first) fun v _ => ?_
      exact andThen (evalAll_keeps calls rest others) fun _ _ => give trivial

theorem evalEntries_keeps (calls : A.Calls call) :
    ∀ (es : List (String × Expr)) (found : List (String × Value)),
      (∀ node ∈ Expr.innerEntries es, A.Reports node.pos) →
      A.Holds (evalEntries call found es) any
  | [], found, _ => by
      rw [evalEntries]
      exact give trivial
  | (key, e) :: rest, found, stands => by
      rw [evalEntries]
      obtain ⟨first, others⟩ := List.forall_mem_append.mp stands
      refine andThen (eval_keeps calls e first) fun v _ => ?_
      exact evalEntries_keeps calls rest _ others

end

end Expressions

section Statements

variable {A : Account W} {call : Caller W} {s : Stmt} (keeps : s.Keeps A) (silent : s.isLog = false)
include keeps silent

theorem record_keeps (value : Option Snapshot) (step : Step) (tells : s.Tells step) :
    A.Holds (s.record value step) any :=
  record keeps.reports (keeps.records silent value step tells)

theorem recordValue_keeps (v : Value) (step : Snapshot → Step)
    (tells : ∀ shown, s.Tells (step shown)) : A.Holds (s.recordValue v step) any :=
  andThen (freeze v) fun shown _ => record_keeps keeps silent (some shown) _ (tells shown)

theorem runCall_keeps (calls : A.Calls call) {callee : String} {args : List Expr} {pos : Position}
    (stands : (Expr.call callee args pos).Stands A.Reports)
    (tells : ∀ frozen shown, s.Tells (.call callee frozen shown)) :
    A.Holds (runCall call s callee args pos) any := by
  obtain ⟨here, inside⟩ := List.forall_mem_cons.mp stands
  refine andThen (evalAll_keeps calls args inside) fun values _ => andThen heap fun h _ => ?_
  refine andThen (calls callee values pos here) fun result _ => ?_
  exact recordValue_keeps keeps silent result _ (tells _)

end Statements

section Statements

variable {A : Account W} {call : Caller W}

theorem log_apply (value : Expr) (pos : Position) (v : Value) (m : Machine W) :
    (do
      Exec.log ((← Exec.heap).output v)
      (Stmt.log value pos).recordValue v .log) m =
    Exec.record pos "LogStatement" (some (m.heap.freeze v)) (.log (m.heap.freeze v))
      { m with host := m.host.log (m.heap.output v) } :=
  rfl

theorem log_keeps {value : Expr} {pos : Position} (keeps : (Stmt.log value pos).Keeps A)
    (v : Value) : A.Holds (do
      Exec.log ((← Exec.heap).output v)
      (Stmt.log value pos).recordValue v .log) any := by
  intro m
  rw [log_apply]
  exact allows_record keeps.reports (keeps.logs rfl m v)

mutual

theorem exec_keeps (calls : A.Calls call) :
    ∀ s : Stmt, (∀ t ∈ s :: s.inner, t.Keeps A) → A.Holds (exec call s) any
  | .set name value pos, nodes => by
      rw [exec]
      obtain ⟨keeps, -⟩ := List.forall_mem_cons.mp nodes
      have stands := List.forall_mem_singleton.mp keeps.own
      refine andThen (eval_keeps calls value stands) fun v _ => ?_
      refine andThen (declare keeps.reports name v false) fun _ _ => ?_
      exact andThen (recordValue_keeps keeps rfl v (.declare name ·) fun _ => rfl) fun _ _ =>
        give trivial
  | .change name value pos, nodes => by
      rw [exec]
      obtain ⟨keeps, -⟩ := List.forall_mem_cons.mp nodes
      have stands := List.forall_mem_singleton.mp keeps.own
      refine andThen (eval_keeps calls value stands) fun v _ => ?_
      refine andThen (assign keeps.reports name v) fun _ _ => ?_
      exact andThen (recordValue_keeps keeps rfl v (.assign name ·) fun _ => rfl) fun _ _ =>
        give trivial
  | .changeElement object key value pos, nodes => by
      rw [exec]
      obtain ⟨keeps, -⟩ := List.forall_mem_cons.mp nodes
      obtain ⟨stands₁, others⟩ := List.forall_mem_cons.mp keeps.own
      obtain ⟨stands₂, others⟩ := List.forall_mem_cons.mp others
      refine andThen (eval_keeps calls object stands₁) fun target _ => ?_
      refine andThen (eval_keeps calls key stands₂) fun k _ => ?_
      refine andThen (eval_keeps calls value (List.forall_mem_singleton.mp others)) fun v _ => ?_
      refine andThen heap fun h _ => ?_
      have fails := writeElement_fails h target k v
      refine andThen (orReportWrite keeps.reports (keeps.writes rfl) fails) fun h' _ => ?_
      refine andThen (setHeap h') fun _ _ => ?_
      refine andThen (freeze k) fun index _ => ?_
      exact andThen (recordValue_keeps keeps rfl v (.changeElement (rootName object) index ·)
        fun _ => rfl) fun _ _ => give trivial
  | .log value pos, nodes => by
      rw [exec]
      obtain ⟨keeps, -⟩ := List.forall_mem_cons.mp nodes
      have stands := List.forall_mem_singleton.mp keeps.own
      refine andThen (eval_keeps calls value stands) fun v _ => ?_
      have both := andThen (log_keeps keeps v) fun _ _ =>
        give (A := A) (a := Completion.normal) (Q := any) trivial
      simpa only [bind_assoc] using both
  | .conditional condition onTrue onFalse pos, nodes => by
      unfold exec
      obtain ⟨keeps, inside⟩ := List.forall_mem_cons.mp nodes
      have stands := List.forall_mem_singleton.mp keeps.own
      refine andThen (eval_keeps calls condition stands) fun v _ => ?_
      refine andThen (conditionAt_keeps v keeps.reports) fun holds _ => ?_
      refine andThen (recordValue_keeps keeps rfl v (fun _ => .condition "if" holds) fun _ => rfl)
        fun _ _ => ?_
      cases onFalse with
      | none =>
          obtain ⟨first, -⟩ := List.forall_mem_append.mp inside
          split
          · exact inBlock (execAll_keeps calls onTrue first)
          · exact give trivial
      | some body =>
          obtain ⟨first, second⟩ := List.forall_mem_append.mp inside
          split
          · exact inBlock (execAll_keeps calls onTrue first)
          · exact inBlock (execAll_keeps calls body second)
  | .repeatTimes count body pos, nodes => by
      rw [exec]
      obtain ⟨keeps, inside⟩ := List.forall_mem_cons.mp nodes
      have stands := List.forall_mem_singleton.mp keeps.own
      refine andThen (eval_keeps calls count stands) fun n _ => ?_
      refine andThen features fun f _ => andThen heap fun h _ => ?_
      refine andThen (orReport stands.pos (repeatCount_fails h n f.maxIterations)) fun total _ => ?_
      split
      · exact andThen (record_keeps keeps rfl none (.skippedLoop "repeat") rfl) fun _ _ =>
          give trivial
      · refine inLoop (loopTimes (fun round => ?_) 1 total)
        have begins := record_keeps keeps rfl none (.iterate round total) trivial
        exact inRound keeps.reports begins (execAll_keeps calls body inside)
  | .forEach element iterable body pos, nodes => by
      rw [exec]
      obtain ⟨keeps, inside⟩ := List.forall_mem_cons.mp nodes
      have stands := List.forall_mem_singleton.mp keeps.own
      refine andThen (eval_keeps calls iterable stands) fun v _ => andThen heap fun h _ => ?_
      split
      · exact andThen heap fun _ _ => raise (keeps.reports _ trivial)
      · exact andThen (record_keeps keeps rfl none (.skippedLoop "for each") rfl) fun _ _ =>
          give trivial
      · refine inLoop (loopOver (fun (item, round) => ?_) _)
        refine inRound keeps.reports ?_ (execAll_keeps calls body inside)
        refine andThen (declare keeps.reports element item false) fun _ _ => ?_
        exact recordValue_keeps keeps rfl item (.visit element · round) fun _ => rfl
  | .block body pos, nodes => by
      rw [exec]
      obtain ⟨-, inside⟩ := List.forall_mem_cons.mp nodes
      exact inBlock (execAll_keeps calls body inside)
  | .function name params body pos, nodes => by
      obtain ⟨keeps, -⟩ := List.forall_mem_cons.mp nodes
      cases keeps.plain
  | .giveBack value pos, nodes => by
      rw [exec]
      obtain ⟨keeps, -⟩ := List.forall_mem_cons.mp nodes
      have recorded (v : Value) := andThen
        (recordValue_keeps keeps rfl v (.giveBack <| some ·) fun _ => trivial) fun _ _ =>
          give (A := A) (a := Completion.returned v) (Q := any) trivial
      refine andThen inFunction fun inside _ => ?_
      refine unlessRaised (keeps.reports .returnOutsideFunction trivial) ?_
      cases value with
      | some e =>
          have stands := List.forall_mem_singleton.mp keeps.own
          exact andThen (eval_keeps calls e stands) fun v _ => recorded v
      | none => exact recorded .nothing
  | .leaveLoop pos, nodes => by
      rw [exec]
      obtain ⟨keeps, -⟩ := List.forall_mem_cons.mp nodes
      refine andThen loopDepth fun depth _ => ?_
      refine unlessRaised (keeps.reports .breakOutsideLoop trivial) ?_
      exact andThen (record_keeps keeps rfl none .leaveLoop trivial) fun _ _ => give trivial
  | .nextIteration lexeme pos, nodes => by
      rw [exec]
      obtain ⟨keeps, -⟩ := List.forall_mem_cons.mp nodes
      refine andThen loopDepth fun depth _ => ?_
      refine unlessRaised (keeps.reports (.continueOutsideLoop lexeme) trivial) ?_
      exact andThen (record_keeps keeps rfl none .nextIteration trivial) fun _ _ => give trivial
  | .expression value pos, nodes => by
      obtain ⟨keeps, -⟩ := List.forall_mem_cons.mp nodes
      have stands := List.forall_mem_singleton.mp keeps.own
      cases value with
      | call callee args callPos =>
          rw [exec]
          refine andThen (runCall_keeps keeps rfl calls stands fun _ _ => rfl) fun _ _ => ?_
          exact give trivial
      | literal | name | list | dictionary | unary | binary | logical | grouping | index =>
          unfold exec
          refine andThen (eval_keeps calls _ stands) fun v _ => ?_
          exact andThen (recordValue_keeps keeps rfl v .expression fun _ => trivial) fun _ _ =>
            give trivial

theorem execAll_keeps (calls : A.Calls call) :
    ∀ body : List Stmt, (∀ t ∈ Stmt.innerAll body, t.Keeps A) → A.Holds (execAll call body) any
  | [], _ => by
      rw [execAll]
      exact give trivial
  | s :: rest, nodes => by
      rw [execAll]
      obtain ⟨first, others⟩ := List.forall_mem_append.mp nodes
      refine andThen (exec_keeps calls s first) fun c _ => ?_
      split
      · exact execAll_keeps calls rest others
      · exact give trivial

end

end Statements

theorem pass_keeps {A : Account W} (v : Value) : A.Holds (pass v) any :=
  ofUnmarked (fun _ => rfl) fun _ => ⟨rfl, rfl, rfl, rfl⟩

/-- Every node of the program is in the account; a function that it declares may be refused. -/
structure Program.Keeps (A : Account W) (program : Program) : Prop where
  declares : ∀ f ∈ program.functions, A.Reports f.position
  bodies : ∀ f ∈ program.functions, ∀ t ∈ Stmt.innerAll f.body, t.Keeps A
  statements : ∀ s ∈ program.statements, ∀ t ∈ s :: s.inner, t.Keeps A

theorem mem_innerAll {s t : Stmt} {body : List Stmt} (member : s ∈ body)
    (inside : t ∈ s :: s.inner) : t ∈ Stmt.innerAll body := by
  induction body with
  | nil => cases member
  | cons first rest ih =>
      rcases List.mem_cons.mp member with rfl | behind
      · exact List.mem_append_left _ inside
      · exact List.mem_append_right _ (ih behind)

/-- In a program that is formed well, it is enough to look at the nodes that run. -/
theorem keeps_of_nodes {A : Account W} {fits : Position → Prop} {program : Program}
    (formed : ∀ s ∈ program, s.Formed fits true)
    (declares : ∀ s ∈ Stmt.innerAll program, A.Reports s.pos)
    (node : ∀ s ∈ Stmt.innerAll program, s.Fits fits → s.function? = none → s.Keeps A) :
    program.Keeps A := by
  refine ⟨fun f declared => ?_, fun f declared t inside => ?_, fun s runs t inside => ?_⟩
  · obtain ⟨s, member, made⟩ := List.mem_filterMap.mp declared
    have place : s.pos = f.position := by
      cases s <;> cases made
      rfl
    rw [← place]
    exact declares s (mem_innerAll member List.mem_cons_self)
  · obtain ⟨s, member, made⟩ := List.mem_filterMap.mp declared
    have within : t ∈ s.inner := by
      cases s <;> cases made
      exact inside
    obtain ⟨here, plain⟩ := (formed s member).inside t within
    exact node t (mem_innerAll member (List.mem_cons_of_mem s within)) here plain
  · obtain ⟨member, plain⟩ := List.mem_filter.mp runs
    have here := mem_innerAll member inside
    rcases List.mem_cons.mp inside with rfl | within
    · exact node t here (formed t member).here (Option.isNone_iff_eq_none.mp plain)
    · obtain ⟨fits, plain⟩ := (formed s member).inside t within
      exact node t here fits plain

theorem run_keeps {A : Account W} {program : Program} (keeps : program.Keeps A) :
    A.Holds program.run A.Calls := by
  have calls : A.Calls (caller program.functions) := by
    refine callFunction pass_keeps (fun call calls f member s inside => ?_) callLimit
    exact exec_keeps calls s fun t within => keeps.bodies f member t (mem_innerAll inside within)
  refine andThen offered fun m _ => ?_
  dsimp only
  obtain all | ⟨f, member, fault, common, refused⟩ :=
    hoist_cases (fun name => (Exec.hostFunction? m.functions name).isSome) [] program.functions
  · rw [all]
    refine andThen (runAll fun s member => ?_) fun _ _ => give calls
    exact exec_keeps calls s (keeps.statements s member)
  · rw [refused]
    exact raise (keeps.declares f member fault common)

end Walkthrough.JikiScript
