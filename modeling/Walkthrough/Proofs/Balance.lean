import Walkthrough.Proofs.Nesting

/-! Statements are balanced. In both languages a statement that ends without a failure has closed
every call, block and loop it opened, however it was left: it ends by leaving or continuing a loop
only if a loop is open around it, and by returning only in a function. What a function returns
becomes the value of the call, so nothing of how a body ended is seen outside. -/

namespace Walkthrough

open Exec

/-- As many calls are in progress, as many blocks are open in each of them, and as many loops are
open around. -/
structure Machine.Balanced {W : Type} (m m' : Machine W) : Prop where
  calls : m'.scopes.depth = m.scopes.depth
  blocks : m'.scopes.openBlocks = m.scopes.openBlocks
  loops : m'.loopDepth = m.loopDepth

/-- What is said of a language whose statements run by `exec`, and by `all` one after the other. -/
structure Exec.Balances {W S : Type} (pass : Value → Exec W Value)
    (exec : Caller W → S → Exec W Completion) (all : Caller W → List S → Exec W Completion)
    (isScoped isPlain : S → Bool) (call : Caller W) : Prop where
  statement : ∀ (s : S) (m m' : Machine W) (c : Completion), exec call s m = .ok c m' →
    m.Balanced m' ∧ c.FitsIn m.place
  /-- Whatever a statement runs in blocks of their own leaves no name behind. -/
  names : ∀ (s : S) (m m' : Machine W) (c : Completion), exec call s m = .ok c m' →
    isScoped s = true → m.scopes.SameNames m'.scopes
  /-- A statement that only evaluates goes on to the next, whatever the functions it calls do. -/
  plain : ∀ (s : S) (m m' : Machine W) (c : Completion), exec call s m = .ok c m' →
    isPlain s = true → c = .normal
  calls : ∀ (name : String) (args : List Value) (position : Position) (m m' : Machine W)
    (v : Value), call name args position m = .ok v m' → m.Balanced m' ∧ m.scopes.SameNames m'.scopes
  /-- Of how its body ended, a call tells the returned value and nothing else. -/
  body : ∀ (f : Function S) (args : List Value) (position : Position) (m m' : Machine W)
    (v : Value), enter pass (exec call) f args position m = .ok v m' →
      ∃ begun last : Machine W, begun.place = .body ∧
        (all call f.body begun = .ok (.returned v) last ∨
          all call f.body begun = .ok .normal last ∧ v = .nothing) ∧
        m' = { last with loopDepth := m.loopDepth, scopes := last.scopes.closeCall }

namespace Exec

variable {W S : Type}

theorem balanced_of_through {m m' : Machine W}
    (through : m.scopes.Through CallFrame.Grows m'.scopes) (depth : m'.loopDepth = m.loopDepth) :
    m.Balanced m' := by
  have blocks := through.openBlocks
  refine ⟨?_, blocks, depth⟩
  have frames := congrArg List.length blocks
  unfold Scopes.openBlocks at frames
  simp only [Scopes.frames_eq, List.length_map, List.length_append, List.length_singleton] at frames
  exact Nat.succ.inj frames

/-- A language is balanced if its statements are within the place where they stand, wherever calls
leave every frame with its names. -/
theorem balances {pass : Value → Exec W Value} {exec : Caller W → S → Exec W Completion}
    {all : Caller W → List S → Exec W Completion} {isScoped isPlain : S → Bool}
    (nil : ∀ call, all call [] = pure .normal)
    (cons : ∀ call s rest, all call (s :: rest) = do
      match ← exec call s with
      | .normal => all call rest
      | other => pure other)
    (passes : ∀ v, Steady (pass v) fun _ => True)
    (runs : ∀ call, (steadiness W).Calls call → ∀ place s,
      Within (CallFrame.Changes (isScoped s)) place (exec call s)
        (Completion.EndsIn (isPlain s) place))
    (functions : List (Function S)) (room : Nat) :
    Balances pass exec all isScoped isPlain (callFunction functions pass exec room) := by
  have bodies (call : Caller W) (calls : (steadiness W).Calls call) : BodyRuns (exec call) :=
    fun s => (runs call calls .body s).ofStatement
  have calls := steady_callFunction passes bodies functions room
  refine ⟨?_, ?_, ?_, ?_, ?_⟩
  · intro s m m' c ended
    obtain ⟨through, depth, fits⟩ := (runs _ calls m.place s).ofStatement rfl ended
    exact ⟨balanced_of_through through depth, fits⟩
  · intro s m m' c ended closed
    have within := runs _ calls m.place s
    rw [closed] at within
    exact (within rfl ended).1.sameNames
  · intro s m m' c ended plain
    have within := runs _ calls m.place s
    rw [plain] at within
    exact (within rfl ended).2.2
  · intro name args position m m' v ended
    have called : Steady (callFunction functions pass exec room name args position) fun _ => True :=
      calls () name args position fun _ _ => trivial
    obtain ⟨through, depth, -⟩ := called m.place rfl ended
    refine ⟨balanced_of_through (through.mono fun _ _ same => same.grows) depth, ?_⟩
    exact through.sameNames
  · intro f args position m m' v ended
    obtain ⟨bound, last, binds, ran, rfl⟩ := enter_stages ended
    obtain ⟨-, depth, atBody⟩ := bound_place passes binds
    have whole := runBody_ok (nil _) (cons _) (bodies _ calls) f.body atBody ran
    exact ⟨_, last, atBody, whole, by rw [depth]⟩

end Exec

namespace JikiScript

/-- The statement runs what it contains in blocks of their own. -/
def Stmt.isScoped : Stmt → Bool
  | .conditional .. => true
  | .repeatTimes .. => true
  | .forEach .. => true
  | .block .. => true
  | _ => false

/-- The statement does nothing but evaluate, store and tell. -/
def Stmt.isPlain : Stmt → Bool
  | .set .. => true
  | .change .. => true
  | .changeElement .. => true
  | .log .. => true
  | .expression .. => true
  | _ => false

variable {W : Type} {R : CallFrame → CallFrame → Prop} {place : Place} {call : Caller W}

theorem eval_steady (calls : (steadiness W).Calls call) (e : Expr) :
    Steady (eval call e) fun _ => True :=
  eval_holds (steadiness W).toDiscipline calls (t := ()) e

theorem conditionAt_steady (v : Value) (pos : Position) :
    Steady (W := W) (conditionAt v pos) fun _ => True :=
  conditionAt_holds (steadiness W).toDiscipline (t := ()) v pos

theorem recordValue_within [Std.Refl R] [IsTrans CallFrame R] (s : Stmt) (v : Value)
    (step : Snapshot → Step) : Within (W := W) R place (s.recordValue v step) fun _ => True := by
  unfold Stmt.recordValue
  refine .andThen (.read fun m => m.heap.freeze v) fun frozen _ => ?_
  exact .record s.pos s.kind (some frozen) (step frozen)

theorem runCall_within (calls : (steadiness W).Calls call) (s : Stmt) (callee : String)
    (args : List Expr) (pos : Position) :
    Within CallFrame.SameNames place (runCall call s callee args pos) fun _ => True := by
  have evaluated : Steady (evalAll call args) fun vs => ∀ v ∈ vs, True :=
    evalAll_holds (steadiness W).toDiscipline calls (t := ()) args
  refine .andThen (evaluated place) fun values given => ?_
  refine .andThen (.read fun m => m.heap) fun _ _ => ?_
  have called : Steady (call callee values pos) fun _ => True := calls () callee values pos given
  exact .andThen (called place) fun result _ => recordValue_within s result _

mutual

theorem exec_within (calls : (steadiness W).Calls call) {place : Place} :
    ∀ s : Stmt, Within (CallFrame.Changes s.isScoped) place (exec call s)
      (Completion.EndsIn s.isPlain place)
  | .set name value pos => by
      change Within CallFrame.Grows place _ (· = Completion.normal)
      rw [exec]
      refine .andThen (eval_steady calls value place).grows fun v _ => ?_
      refine .andThen (.declare name v false pos) fun _ _ => ?_
      exact .andThen (recordValue_within _ v _) fun _ _ => .give rfl
  | .change name value pos => by
      change Within CallFrame.Grows place _ (· = Completion.normal)
      rw [exec]
      refine .andThen (eval_steady calls value place).grows fun v _ => ?_
      have assigned : Steady (W := W) (Exec.assign name v pos) fun _ => True :=
        (steadiness W).assign (t := ()) name pos trivial
      refine .andThen (assigned place).grows fun _ _ => ?_
      exact .andThen (recordValue_within _ v _) fun _ _ => .give rfl
  | .changeElement object key value pos => by
      change Within CallFrame.Grows place _ (· = Completion.normal)
      rw [exec]
      refine .andThen (eval_steady calls object place).grows fun target _ => ?_
      refine .andThen (eval_steady calls key place).grows fun k _ => ?_
      refine .andThen (eval_steady calls value place).grows fun v _ => ?_
      refine .andThen (.read fun m => m.heap) fun h _ => ?_
      refine .andThen (.orRaise pos _) fun h' _ => .andThen (.setHeap h') fun _ _ => ?_
      refine .andThen (.read fun m => m.heap.freeze k) fun index _ => ?_
      exact .andThen (recordValue_within _ v _) fun _ _ => .give rfl
  | .log value pos => by
      change Within CallFrame.Grows place _ (· = Completion.normal)
      rw [exec]
      refine .andThen (eval_steady calls value place).grows fun v _ => ?_
      refine .andThen (.read fun m => m.heap) fun h _ => .andThen (.log _) fun _ _ => ?_
      exact .andThen (recordValue_within _ v _) fun _ _ => .give rfl
  | .conditional condition onTrue onFalse pos => by
      change Within CallFrame.SameNames place _ (Completion.FitsIn place)
      unfold exec
      refine .andThen (eval_steady calls condition place) fun v _ => ?_
      refine .andThen (conditionAt_steady v pos place) fun holds _ => ?_
      refine .andThen (recordValue_within _ v _) fun _ _ => ?_
      split
      · exact .inBlock (execAll_within calls onTrue)
      · match onFalse with
        | some body => exact .inBlock (execAll_within calls body)
        | none => exact .give trivial
  | .repeatTimes count body pos => by
      change Within CallFrame.SameNames place _ (Completion.FitsIn place)
      rw [exec]
      refine .andThen (eval_steady calls count place) fun n _ => ?_
      refine .andThen (.read fun m => m.features) fun f _ => ?_
      refine .andThen (.read fun m => m.heap) fun h _ => ?_
      refine .andThen (.orRaise count.pos _) fun total _ => ?_
      split
      · exact .andThen (.record _ _ _ _) fun _ _ => .give trivial
      · refine .inLoop (.loopTimes (fun round => ?_) 1 total)
        exact .inRound pos (.record _ _ _ _) (execAll_within calls body)
  | .forEach element iterable body pos => by
      change Within CallFrame.SameNames place _ (Completion.FitsIn place)
      rw [exec]
      refine .andThen (eval_steady calls iterable place) fun v _ => ?_
      refine .andThen (.read fun m => m.heap) fun h _ => ?_
      split
      · exact .andThen (.read fun m => m.heap) fun _ _ => .raise _ _
      · exact .andThen (.record _ _ _ _) fun _ _ => .give trivial
      · next items _ _ =>
          refine .inLoop (.loopOver (fun (item, round) => ?_) _)
          refine .inRound pos ?_ (execAll_within calls body)
          refine .andThen (.declare element item false pos) fun _ _ => ?_
          exact recordValue_within _ item _
  | .block body pos => by
      change Within CallFrame.SameNames place _ (Completion.FitsIn place)
      rw [exec]
      exact .inBlock (execAll_within calls body)
  | .function name params body pos => by
      rw [exec]
      exact .raise _ _
  | .giveBack value pos => by
      change Within CallFrame.Grows place _ (Completion.FitsIn place)
      rw [exec]
      refine .ifInFunction _ pos fun inBody => ?_
      have recorded (v : Value) : Within (W := W) CallFrame.Grows place (do
          Stmt.recordValue (.giveBack value pos) v (.giveBack <| some ·)
          return Completion.returned v) (Completion.FitsIn place) :=
        .andThen (recordValue_within _ v _) fun _ _ => .give inBody
      cases value with
      | some e => exact .andThen (eval_steady calls e place).grows fun v _ => recorded v
      | none => exact recorded .nothing
  | .leaveLoop pos => by
      change Within CallFrame.Grows place _ (Completion.FitsIn place)
      rw [exec]
      refine .ifInLoop _ pos fun inLoop => ?_
      exact .andThen (.record _ _ _ _) fun _ _ => .give inLoop
  | .nextIteration lexeme pos => by
      change Within CallFrame.Grows place _ (Completion.FitsIn place)
      rw [exec]
      refine .ifInLoop _ pos fun inLoop => ?_
      exact .andThen (.record _ _ _ _) fun _ _ => .give inLoop
  | .expression value pos => by
      change Within CallFrame.Grows place _ (· = Completion.normal)
      cases value with
      | call callee args callPos =>
          rw [exec]
          exact .andThen (runCall_within calls _ callee args callPos).grows fun _ _ => .give rfl
      | literal | name | list | dictionary | unary | binary | logical | grouping | index =>
          unfold exec
          refine .andThen (eval_steady calls _ place).grows fun v _ => ?_
          exact .andThen (recordValue_within _ v _) fun _ _ => .give rfl

theorem execAll_within (calls : (steadiness W).Calls call) {place : Place} :
    ∀ body : List Stmt, Within CallFrame.Grows place (execAll call body)
      (Completion.FitsIn place)
  | [] => by
      rw [execAll]
      exact .give trivial
  | s :: rest => by
      rw [execAll]
      refine .andThen (exec_within calls s).ofStatement fun c fits => ?_
      split
      · exact execAll_within calls rest
      · exact .give fits

end

end JikiScript

namespace JavaScript

def Stmt.isScoped : Stmt → Bool
  | .block .. => true
  | .forLoop .. => true
  | .forOf .. => true
  | _ => false

def Stmt.isPlain : Stmt → Bool
  | .declare .. => true
  | .expression .. => true
  | _ => false

variable {W : Type} {R : CallFrame → CallFrame → Prop} {place : Place} {call : Caller W}

theorem eval_steady (calls : (steadiness W).Calls call) (e : Expr) :
    Steady (eval call e) fun _ => True :=
  eval_holds (steadiness W) calls (t := ()) e

theorem recordValue_within [Std.Refl R] [IsTrans CallFrame R] (s : Stmt) (v : Value)
    (step : Snapshot → Step) : Within (W := W) R place (s.recordValue v step) fun _ => True := by
  unfold Stmt.recordValue
  refine .andThen (.read fun m => m.heap.freeze v) fun frozen _ => ?_
  exact .record s.pos s.kind (some frozen) (step frozen)

theorem runCall_within (calls : (steadiness W).Calls call) (s : Stmt) (callee : Expr)
    (args : List Expr) (pos : Position) :
    Within CallFrame.SameNames place (runCall call s callee args pos) fun _ => True := by
  have evaluated : Steady (evalAll call args) fun vs => ∀ v ∈ vs, True :=
    evalAll_holds (steadiness W) calls (t := ()) args
  unfold runCall
  refine .andThen (evaluated place) fun values given => ?_
  dsimp only
  split
  · refine .andThen (.read fun m => m.heap) fun _ _ => .andThen (.log _) fun _ _ => ?_
    exact .record _ _ _ _
  · refine .andThen (.read fun m => m.heap) fun _ _ => ?_
    have called : Steady (callNamed call callee values pos) fun _ => True :=
      callNamed_holds (steadiness W) calls (t := ()) callee pos given
    exact .andThen (called place) fun result _ => recordValue_within s result _

theorem runExpression_within (calls : (steadiness W).Calls call) (s : Stmt) (e : Expr) :
    Within CallFrame.SameNames place (runExpression call s e) fun _ => True := by
  have evaluated (e : Expr) := eval_steady calls e
  have stores (target : Expr) (v : Value) : Steady (store call target v) fun _ => True :=
    store_holds (steadiness W) calls (t := ()) target v trivial
  unfold runExpression
  split
  · exact runCall_within calls s _ _ _
  · next op target value pos =>
      have assigned := assignWith_holds (steadiness W) (t := ()) pos op (fun _ => evaluated value)
        (fun _ => evaluated target) fun _ v _ => stores target v
      refine .andThen (assigned place) fun result _ => ?_
      exact recordValue_within s result.stored _
  · next op before target pos =>
      have updated := updateWith_holds (steadiness W) (t := ()) pos op before
        (fun _ => evaluated target) fun _ v _ => stores target v
      refine .andThen (updated place) fun result _ => ?_
      exact recordValue_within s result.stored _
  · exact .andThen (evaluated _ place) fun v _ => recordValue_within s v _

theorem runTest_within (calls : (steadiness W).Calls call) (s : Stmt) (kind : String)
    (test : Expr) : Within CallFrame.SameNames place (runTest call s kind test) fun _ => True := by
  refine .andThen (eval_steady calls test place) fun v _ => ?_
  have decided : Steady (W := W) (conditionAt v test.pos) fun _ => True :=
    conditionAt_holds (steadiness W) (t := ()) v test.pos
  refine .andThen (decided place) fun holds _ => ?_
  exact .andThen (recordValue_within s v _) fun _ _ => .give trivial

mutual

theorem exec_within (calls : (steadiness W).Calls call) {place : Place} :
    ∀ s : Stmt, Within (CallFrame.Changes s.isScoped) place (exec call s)
      (Completion.EndsIn s.isPlain place)
  | .declare kind name value pos => by
      change Within CallFrame.Grows place _ (· = Completion.normal)
      unfold exec
      have declared (v : Value) : Within (W := W) CallFrame.Grows place (do
          Exec.declare name v kind.isConstant pos
          Stmt.recordValue (.declare kind name value pos) v (.declare name ·)
          return Completion.normal) (· = .normal) := by
        refine .andThen (.declare name v kind.isConstant pos) fun _ _ => ?_
        exact .andThen (recordValue_within _ v _) fun _ _ => .give rfl
      cases value with
      | some e => exact .andThen (eval_steady calls e place).grows fun v _ => declared v
      | none => exact declared .nothing
  | .expression value pos => by
      change Within CallFrame.Grows place _ (· = Completion.normal)
      rw [exec]
      exact .andThen (runExpression_within calls _ value).grows fun _ _ => .give rfl
  | .block body pos => by
      change Within CallFrame.SameNames place _ (Completion.FitsIn place)
      rw [exec]
      exact .inBlock (execAll_within calls body)
  | .conditional test onTrue onFalse pos => by
      change Within CallFrame.Grows place _ (Completion.FitsIn place)
      unfold exec
      refine .andThen (runTest_within calls _ "if" test).grows fun holds _ => ?_
      split
      · exact (exec_within calls onTrue).ofStatement
      · match onFalse with
        | some other => exact (exec_within calls other).ofStatement
        | none => exact .give trivial
  | .whileLoop test body pos => by
      change Within CallFrame.Grows place _ (Completion.FitsIn place)
      rw [exec]
      refine .inLoop (.andThen (.read fun m => _) fun bound _ => ?_)
      exact .loopWhile pos (runTest_within calls _ "while" test).grows
        (exec_within calls body).ofStatement (.give trivial) bound
  | .forLoop start test update body pos => by
      change Within CallFrame.SameNames place _ (Completion.FitsIn place)
      unfold exec
      refine .inBlock ?_
      have loop : Within CallFrame.Grows place (Exec.inLoop (Exec.iterationsLeft >>=
          Exec.loopWhile pos
            (match test with
              | some e => runTest call (.forLoop start test update body pos) "for" e
              | none => pure true)
            (exec call body)
            (match update with
              | some e => do let _ ← eval call e
              | none => pure ()))) (Completion.FitsIn place) := by
        refine .inLoop (.andThen (.read fun m => _) fun bound _ => ?_)
        refine .loopWhile pos ?_ (exec_within calls body).ofStatement ?_ bound
        · split
          · exact (runTest_within calls _ "for" _).grows
          · exact .give trivial
        · split
          · exact .andThen (eval_steady calls _ _).grows fun _ _ => .give trivial
          · exact .give trivial
      match start with
      | some first => exact .andThen (exec_within calls first).ofStatement fun _ _ => loop
      | none => exact loop
  | .forOf kind name iterable body pos => by
      change Within CallFrame.SameNames place _ (Completion.FitsIn place)
      rw [exec]
      refine .andThen (eval_steady calls iterable place) fun v _ => ?_
      refine .andThen (.read fun m => m.heap) fun h _ => ?_
      split
      · exact .raise _ _
      · exact .andThen (.record _ _ _ _) fun _ _ => .give trivial
      · next items _ _ =>
          refine .inLoop (.loopOver (fun (item, round) => ?_) _)
          refine .inRound pos ?_ (exec_within calls body).ofStatement
          refine .andThen (.declare name item kind.isConstant pos) fun _ _ => ?_
          exact recordValue_within _ item _
  | .function name params body pos => by
      rw [exec]
      exact .raise _ _
  | .giveBack value pos => by
      change Within CallFrame.Grows place _ (Completion.FitsIn place)
      rw [exec]
      refine .ifInFunction _ pos fun inBody => ?_
      have recorded (v : Value) : Within (W := W) CallFrame.Grows place (do
          Stmt.recordValue (.giveBack value pos) v (.giveBack <| some ·)
          return Completion.returned v) (Completion.FitsIn place) :=
        .andThen (recordValue_within _ v _) fun _ _ => .give inBody
      cases value with
      | some e => exact .andThen (eval_steady calls e place).grows fun v _ => recorded v
      | none => exact recorded .nothing
  | .leaveLoop pos => by
      change Within CallFrame.Grows place _ (Completion.FitsIn place)
      rw [exec]
      refine .ifInLoop _ pos fun inLoop => ?_
      exact .andThen (.record _ _ _ _) fun _ _ => .give inLoop
  | .nextIteration pos => by
      change Within CallFrame.Grows place _ (Completion.FitsIn place)
      rw [exec]
      refine .ifInLoop _ pos fun inLoop => ?_
      exact .andThen (.record _ _ _ _) fun _ _ => .give inLoop

theorem execAll_within (calls : (steadiness W).Calls call) {place : Place} :
    ∀ body : List Stmt, Within CallFrame.Grows place (execAll call body)
      (Completion.FitsIn place)
  | [] => by
      rw [execAll]
      exact .give trivial
  | s :: rest => by
      rw [execAll]
      refine .andThen (exec_within calls s).ofStatement fun c fits => ?_
      split
      · exact execAll_within calls rest
      · exact .give fits

end

end JavaScript

/-- Both languages are balanced in every state, whatever functions the program has and however deep
calls may nest. -/
theorem languages_are_balanced {W : Type} (room : Nat) :
    (∀ functions, Balances (W := W) JikiScript.pass JikiScript.exec JikiScript.execAll
      JikiScript.Stmt.isScoped JikiScript.Stmt.isPlain
      (callFunction functions JikiScript.pass JikiScript.exec room)) ∧
    (∀ functions, Balances (W := W) JavaScript.pass JavaScript.exec JavaScript.execAll
      JavaScript.Stmt.isScoped JavaScript.Stmt.isPlain
      (callFunction functions JavaScript.pass JavaScript.exec room)) := by
  constructor
  · intro functions
    refine balances (fun _ => by rw [JikiScript.execAll])
      (fun _ _ _ => rfl)
      (fun v => ?_) (fun _ calls _ s => JikiScript.exec_within calls s) functions room
    exact JikiScript.pass_holds (steadiness W).toDiscipline (t := ()) v
  · intro functions
    refine balances (fun _ => by rw [JavaScript.execAll])
      (fun _ _ _ => rfl)
      (fun v _ => .give trivial) (fun _ calls _ s => JavaScript.exec_within calls s) functions room

namespace JavaScript

def firstCharacter : Function Stmt where
  name := "first"
  params := []
  body := [.forOf .constBinding "c" (.literal (.text "ab") {})
    (.block [.declare .letBinding "d" (some (.name "c" {})) {}, .giveBack (some (.name "d" {})) {}]
      {}) {}]
  position := {}

theorem firstCharacter_is_balanced :
    let call : Caller Unit := callFunction [firstCharacter] pass exec callLimit
    ∃ v m', call "first" [] {} blank = .ok v m' ∧ v = .text "a" ∧ blank.Balanced m' ∧
      blank.scopes.SameNames m'.scopes := by
  intro call
  have gave : (match call "first" [] {} blank with
      | .ok v _ => decide (v = .text "a")
      | .error _ _ => false) = true := by
    decide +kernel
  split at gave
  · next v m' ended =>
      obtain ⟨balanced, names⟩ := ((languages_are_balanced callLimit).2 [firstCharacter]).calls
        "first" [] {} blank m' v ended
      exact ⟨v, m', ended, of_decide_eq_true gave, balanced, names⟩
  · cases gave

end JavaScript
end Walkthrough
