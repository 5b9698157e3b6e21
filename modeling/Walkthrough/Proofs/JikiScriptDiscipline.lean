import Walkthrough.Proofs.Discipline

/-! Every discipline holds of JikiScript: first of its operators and elements, then of expressions,
statements, calls and whole programs. -/

namespace Walkthrough.JikiScript

variable {W : Type}

theorem Literal.value_plain (l : Literal) : l.value.isCollection = false := by
  cases l <;> rfl

theorem unary_plain {h : Heap} {truthiness : Bool} {v : Value} {op : UnaryOp} {result : Value}
    (given : unary h truthiness v op = .ok result) : result.isCollection = false := by
  cases op with
  | negate | not =>
      obtain ⟨x, -, made⟩ := exists_of_bind_ok given
      cases made
      rfl

theorem arithmetic_plain {h : Heap} {op : ArithmeticOp} {left right result : Value}
    (given : arithmetic h op left right = .ok result) : result.isCollection = false := by
  obtain ⟨x, -, rest⟩ := exists_of_bind_ok given
  obtain ⟨y, -, made⟩ := exists_of_bind_ok rest
  cases made
  rfl

theorem comparison_plain {h : Heap} {op : ComparisonOp} {left right result : Value}
    (given : comparison h op left right = .ok result) : result.isCollection = false := by
  obtain ⟨x, -, rest⟩ := exists_of_bind_ok given
  obtain ⟨y, -, made⟩ := exists_of_bind_ok rest
  cases made
  rfl

theorem binary_plain {h : Heap} {left right result : Value} {op : BinaryOp}
    (given : binary h left right op = .ok result) : result.isCollection = false := by
  cases op with
  | add | subtract | multiply | divide | remainder => exact arithmetic_plain given
  | less | lessEqual | greater | greaterEqual => exact comparison_plain given
  | equal | notEqual =>
      obtain ⟨b, -, made⟩ := exists_of_bind_ok given
      cases made
      rfl

section Elements

variable (L : Discipline W) {t : L.Stage} {h : Heap}

theorem readElement_good {object index result : Value} (sound : L.sound t h)
    (good : L.good t object) (given : readElement h object index = .ok result) :
    L.good t result := by
  cases object with
  | list cell =>
      obtain ⟨i, -, made⟩ := exists_of_bind_ok given
      cases made
      cases found : (h.items cell)[i]? with
      | none => exact L.plain rfl
      | some item => exact L.items sound good item (List.mem_of_getElem? found)
  | text s =>
      obtain ⟨i, -, made⟩ := exists_of_bind_ok given
      cases made
      exact L.plain rfl
  | dict cell =>
      simp only [readElement] at given
      split at given
      · next value found =>
          cases given
          exact L.entries sound good _ (mem_of_lookup found)
      · cases given
  | number _ | boolean _ | nothing => cases given

theorem writeElement_written {object index value : Value} {h' : Heap} (sound : L.sound t h)
    (good : L.good t object) (fresh : L.good t value)
    (given : writeElement h object index value = .ok h') : h.Written (L.good t) h' := by
  cases object with
  | list cell =>
      obtain ⟨i, -, made⟩ := exists_of_bind_ok given
      cases made
      refine .items good fun x member => ?_
      rcases List.mem_or_eq_of_mem_set member with old | rfl
      · exact L.items sound good x old
      · exact fresh
  | dict cell =>
      cases index with
      | text key =>
          cases given
          exact .entries good (L.putEntry_good fresh (L.entries sound good))
      | number _ | boolean _ | list _ | dict _ | nothing => cases given
  | number _ | text _ | boolean _ | nothing => cases given

end Elements

theorem writeElement_distinct {object index value : Value} {h h' : Heap} (distinct : h.Distinct)
    (given : writeElement h object index value = .ok h') : h'.Distinct := by
  cases object with
  | list cell =>
      obtain ⟨i, -, made⟩ := exists_of_bind_ok given
      cases made
      exact distinct
  | dict cell =>
      cases index with
      | text key =>
          cases given
          exact distinct.setEntries ((distinct cell).putEntry key value) cell
      | number _ | boolean _ | list _ | dict _ | nothing => cases given
  | number _ | text _ | boolean _ | nothing => cases given

section Expressions

variable (L : Discipline W) {call : Caller W}

theorem conditionAt_holds {t : L.Stage} (v : Value) (pos : Position) :
    L.holds t (conditionAt v pos) L.any := by
  change L.holds t (Exec.consult pos fun f _ => v.condition f.truthiness) _
  exact L.consult pos (.condition v) fun _ _ _ _ _ => trivial

mutual

theorem eval_holds (calls : L.Calls call) {t : L.Stage} :
    ∀ e : Expr, L.holds t (eval call e) L.good
  | .literal value pos => by
      rw [eval]
      exact L.give (L.plain value.value_plain)
  | .name name pos => by
      rw [eval]
      exact L.readName name pos
  | .list elements pos => by
      rw [eval]
      exact L.andThen (evalAll_holds calls elements) fun _ _ _ good => L.newList good
  | .dictionary entries pos => by
      rw [eval]
      have none : ∀ e ∈ ([] : List (String × Value)), L.good t e.2 := nofun
      exact L.andThen (evalEntries_holds calls entries [] none .nil) fun _ _ _ found =>
        L.newDict found.1 fun _ => found.2
  | .unary op operand pos => by
      rw [eval]
      refine L.andThen (eval_holds calls operand) fun t v _ _ => ?_
      change L.holds t (Exec.consult pos fun f h => unary h f.truthiness v op) _
      exact L.consult pos (unary_permissive v op) fun _ _ _ _ given => L.plain (unary_plain given)
  | .binary op left right pos => by
      rw [eval]
      refine L.andThen (eval_holds calls left) fun _ x _ _ => ?_
      refine L.andThen (eval_holds calls right) fun t y _ _ => ?_
      change L.holds t (Exec.consult pos fun _ h => binary h x y op) _
      exact L.consult pos (.constant _) fun _ _ _ _ given => L.plain (binary_plain given)
  | .logical op left right pos => by
      rw [eval]
      refine L.andThen (eval_holds calls left) fun _ x _ _ => ?_
      refine L.andThen (conditionAt_holds L x pos) fun _ settled _ _ => ?_
      split
      · exact L.give (L.plain rfl)
      · refine L.andThen (eval_holds calls right) fun _ y _ _ => ?_
        exact L.andThen (conditionAt_holds L y pos) fun _ _ _ _ => L.give (L.plain rfl)
  | .grouping inner pos => by
      rw [eval]
      exact eval_holds calls inner
  | .call callee args pos => by
      rw [eval]
      exact L.andThen (evalAll_holds calls args) fun t values _ good =>
        calls t callee values pos good
  | .index object key pos => by
      rw [eval]
      refine L.andThen (eval_holds calls object) fun _ v _ good => ?_
      refine L.andThen (eval_holds calls key) fun t k le _ => ?_
      change L.holds t (Exec.consult pos fun _ h => readElement h v k) _
      exact L.consult pos (.constant _) fun _ _ _ sound given =>
        readElement_good L sound (L.later le good) given

theorem evalAll_holds (calls : L.Calls call) {t : L.Stage} :
    ∀ es : List Expr, L.holds t (evalAll call es) fun t vs => ∀ v ∈ vs, L.good t v
  | [] => by
      rw [evalAll]
      exact L.give nofun
  | e :: rest => by
      rw [evalAll]
      refine L.andThen (eval_holds calls e) fun _ v _ first => ?_
      refine L.andThen (evalAll_holds calls rest) fun _ vs le others => L.give ?_
      exact List.forall_mem_cons.mpr ⟨L.later le first, others⟩

theorem evalEntries_holds (calls : L.Calls call) {t : L.Stage} :
    ∀ (es : List (String × Expr)) (found : List (String × Value)),
      (∀ e ∈ found, L.good t e.2) → KeysDistinct found →
      L.holds t (evalEntries call found es) fun t vs => (∀ e ∈ vs, L.good t e.2) ∧ KeysDistinct vs
  | [], found, good, keys => by
      rw [evalEntries]
      exact L.give ⟨good, keys⟩
  | (key, e) :: rest, found, good, keys => by
      rw [evalEntries]
      refine L.andThen (eval_holds calls e) fun _ v le fresh => ?_
      have stillGood (entry) (member : entry ∈ found) := L.later le (good entry member)
      exact evalEntries_holds calls rest _ (L.putEntry_good fresh stillGood) (keys.putEntry key v)

end

end Expressions

section Statements

variable (L : StatementDiscipline W) {call : Caller W}

theorem recordValue_holds {t : L.Stage} (s : Stmt) (v : Value) (step : Snapshot → Step)
    (quiet : ∀ shown, (step shown).opensRound = false)
    (shows : L.keyed → ∀ shown, shown.Distinct → (step shown).Distinct) :
    L.holds t (s.recordValue v step) L.any :=
  L.andThen (L.freeze v) fun _ shown _ distinct => L.record _ _ _ (quiet shown) fun keyed =>
    .success (distinct keyed) (shows keyed shown (distinct keyed))

theorem runCall_holds (calls : L.Calls call) {t : L.Stage} (s : Stmt) (callee : String)
    (args : List Expr) (pos : Position) : L.holds t (runCall call s callee args pos) L.any := by
  refine L.andThen (evalAll_holds L.toDiscipline calls args) fun _ values _ good => ?_
  refine L.andThen L.readHeap fun t h le sound => ?_
  have stillGood (a : Value) (member : a ∈ values) : L.good t a := L.later le (good a member)
  refine L.andThen (calls t callee values pos stillGood) fun _ result _ _ => ?_
  refine recordValue_holds L s result _ (fun _ => rfl) fun keyed _ given => ?_
  have passed (a : Value) (_ : a ∈ values) := (L.distinct keyed sound).freeze a
  exact List.forall_mem_cons.mpr ⟨given, List.forall_mem_map.mpr passed⟩

mutual

theorem exec_holds (calls : L.Calls call) {t : L.Stage} :
    ∀ s : Stmt, L.holds t (exec call s) L.carries
  | .set name value pos => by
      rw [exec]
      refine L.andThen (eval_holds L.toDiscipline calls value) fun _ v _ good => ?_
      refine L.andThen (L.declare name false pos good) fun _ _ _ _ => ?_
      exact L.andThen (recordValue_holds L _ v _ (fun _ => rfl) fun _ _ => .one rfl)
        fun _ _ _ _ => L.give trivial
  | .change name value pos => by
      rw [exec]
      refine L.andThen (eval_holds L.toDiscipline calls value) fun _ v _ good => ?_
      refine L.andThen (L.assign name pos good) fun _ _ _ _ => ?_
      exact L.andThen (recordValue_holds L _ v _ (fun _ => rfl) fun _ _ => .one rfl)
        fun _ _ _ _ => L.give trivial
  | .changeElement object key value pos => by
      rw [exec]
      refine L.andThen (eval_holds L.toDiscipline calls object) fun _ target _ good => ?_
      refine L.andThen (eval_holds L.toDiscipline calls key) fun _ k le₁ _ => ?_
      refine L.andThen (eval_holds L.toDiscipline calls value) fun _ v le₂ fresh => ?_
      refine L.rewriteThen pos (fun _ _ sound given => writeElement_written L.toDiscipline sound
        (L.later (le₁.trans le₂) good) fresh given) (fun _ _ => writeElement_distinct) fun _ => ?_
      refine L.andThen (L.freeze k) fun _ index _ place => ?_
      have shows (keyed : L.keyed) (shown : Snapshot) (value : shown.Distinct) :
          (Step.changeElement (rootName object) index shown).Distinct :=
        List.forall_mem_cons.mpr ⟨place keyed, List.forall_mem_singleton.mpr value⟩
      exact L.andThen (recordValue_holds L _ v _ (fun _ => rfl) shows) fun _ _ _ _ => L.give trivial
  | .log value pos => by
      rw [exec]
      refine L.andThen (eval_holds L.toDiscipline calls value) fun _ v _ _ => ?_
      refine L.andThen L.readHeap fun _ h _ _ => L.andThen (L.log (h.output v)) fun _ _ _ _ => ?_
      exact L.andThen (recordValue_holds L _ v _ (fun _ => rfl) fun _ _ => .one rfl)
        fun _ _ _ _ => L.give trivial
  | .conditional condition onTrue onFalse pos => by
      unfold exec
      refine L.andThen (eval_holds L.toDiscipline calls condition) fun _ v _ _ => ?_
      refine L.andThen (conditionAt_holds L.toDiscipline v pos) fun _ holds _ _ => ?_
      have quiet (_ : Snapshot) := Step.opensRound_if holds
      refine L.andThen (recordValue_holds L _ v _ quiet fun _ _ _ => nofun) fun _ _ _ _ => ?_
      split
      · exact L.inBlock fun _ _ => execAll_holds calls onTrue
      · match onFalse with
        | some body => exact L.inBlock fun _ _ => execAll_holds calls body
        | none => exact L.give trivial
  | .repeatTimes count body pos => by
      rw [exec]
      refine L.andThen (eval_holds L.toDiscipline calls count) fun _ n _ _ => ?_
      refine L.consultThen (Q := fun _ => True) count.pos (repeatCount_permissive n)
        (fun _ _ _ _ _ => trivial) fun _ total _ _ => ?_
      split
      · exact L.andThen (L.record _ _ _ rfl fun _ => .silent rfl) fun _ _ _ _ => L.give trivial
      · refine L.inLoop fun _ _ => L.loopTimes (fun _ round => ?_) 1 total
        exact L.round pos (fun _ _ => .records _ _ _ (fun _ => rfl) fun _ => .silent rfl)
          fun _ => execAll_holds calls body
  | .forEach element iterable body pos => by
      rw [exec]
      refine L.andThen (eval_holds L.toDiscipline calls iterable) fun _ v _ good => ?_
      refine L.andThen L.readHeap fun t h le sound => ?_
      split
      · exact L.andThen L.readHeap fun _ _ _ _ => L.raise _ _
      · exact L.andThen (L.record _ _ _ rfl fun _ => .silent rfl) fun _ _ _ _ => L.give trivial
      · next items _ given =>
          refine L.inLoop fun _ le₁ => L.loopOver fun (item, round) member _ le₂ => ?_
          have itemGood : L.good t item := L.iterable?_good sound (L.later le good) given item
            (List.fst_mem_of_mem_zipIdx member)
          refine L.round pos (fun _ le₃ => ?_) fun _ => execAll_holds calls body
          have stillGood := L.later (le₁.trans (le₂.trans le₃)) itemGood
          refine .andThen (L.declare element false pos stillGood) fun _ _ _ _ => ?_
          refine .andThen (L.freeze item) fun _ _ _ distinct => ?_
          exact .records _ _ _ (fun _ => rfl) fun keyed =>
            .success (distinct keyed) (.one rfl (distinct keyed))
  | .block body pos => by
      rw [exec]
      exact L.inBlock fun _ _ => execAll_holds calls body
  | .function name params body pos => by
      rw [exec]
      exact L.raise _ _
  | .giveBack value pos => by
      rw [exec]
      refine L.andThen L.inFunction fun _ inside _ _ => L.unlessRaised _ pos fun t => ?_
      have recorded (t : L.Stage) (v : Value) (good : L.good t v) := L.andThen
        (recordValue_holds L (.giveBack value pos) v (.giveBack <| some ·) (fun _ => rfl)
          fun _ _ => .one rfl)
          fun _ _ le _ => L.give (a := Completion.returned v) (Q := L.carries) (L.later le good)
      cases value with
      | some e =>
          exact L.andThen (eval_holds L.toDiscipline calls e) fun t v _ good => recorded t v good
      | none => exact recorded t .nothing (L.plain rfl)
  | .leaveLoop pos => by
      rw [exec]
      refine L.andThen L.loopDepth fun _ depth _ _ => L.unlessRaised _ pos fun _ => ?_
      exact L.andThen (L.record _ _ _ rfl fun _ => .silent rfl) fun _ _ _ _ => L.give trivial
  | .nextIteration lexeme pos => by
      rw [exec]
      refine L.andThen L.loopDepth fun _ depth _ _ => L.unlessRaised _ pos fun _ => ?_
      exact L.andThen (L.record _ _ _ rfl fun _ => .silent rfl) fun _ _ _ _ => L.give trivial
  | .expression value pos => by
      cases value with
      | call callee args callPos =>
          rw [exec]
          refine L.andThen (runCall_holds L calls _ callee args callPos) fun _ _ _ _ => ?_
          exact L.give trivial
      | literal | name | list | dictionary | unary | binary | logical | grouping | index =>
          unfold exec
          refine L.andThen (eval_holds L.toDiscipline calls _) fun _ v _ _ => ?_
          exact L.andThen (recordValue_holds L _ v _ (fun _ => rfl) fun _ _ => .one rfl)
            fun _ _ _ _ => L.give trivial

theorem execAll_holds (calls : L.Calls call) {t : L.Stage} :
    ∀ body : List Stmt, L.holds t (execAll call body) L.carries
  | [] => by
      rw [execAll]
      exact L.give trivial
  | s :: rest => by
      rw [execAll]
      refine L.andThen (exec_holds calls s) fun _ c _ carries => ?_
      split
      · exact execAll_holds calls rest
      · exact L.give carries

end

end Statements

theorem pass_holds (L : Discipline W) {t : L.Stage} (v : Value) : L.holds t (pass v) L.good := by
  change L.holds t (Exec.heap >>= fun h => Exec.thaw (h.freeze v)) _
  exact L.andThen L.readHeap fun _ h _ sound =>
    L.thaw (h.freeze v) fun keyed => (L.distinct keyed sound).freeze v

section Programs

/-- A program is held to every discipline to which its calls are. -/
theorem run_holds_of_calls (L : StatementDiscipline W) (reads : L.ReadsFunctions)
    (calls : ∀ functions, L.Calls (caller functions)) {t : L.Stage} (program : Program) :
    L.holds t program.run fun _ => L.Calls := by
  unfold Program.run
  refine reads (fun m => ?_) fun m m' same => by simp only [same]
  dsimp only
  split
  · next failure _ => exact L.raise failure.fault failure.position
  · next functions _ =>
      have ran := L.runAll (t := t) (fun _ => exec_holds L (calls functions)) program.statements
      exact L.andThen ran fun _ _ _ _ => L.give (calls functions)

variable (L : CallDiscipline W)

theorem callFunction_holds (functions : List (Function Stmt)) (room : Nat) :
    L.Calls (Exec.callFunction functions pass exec room) :=
  L.callFunction (fun _ v _ => pass_holds L.toDiscipline v)
    (fun _ calls _ => exec_holds L.toStatementDiscipline calls) functions room

end Programs
end Walkthrough.JikiScript
