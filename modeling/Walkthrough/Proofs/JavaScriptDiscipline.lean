import Walkthrough.Proofs.Discipline

/-! Every discipline holds of the JavaScript subset. Its expressions store, so that they have to be
held to what statements are made of. -/

namespace Walkthrough

theorem Value.arithmetic_plain {h : Heap} {op : ArithmeticOp} {left right result : Value}
    {coercion : Bool} (given : Value.arithmetic h op left right coercion = .ok result) :
    result.isCollection = false := by
  unfold Value.arithmetic at given
  split at given
  · cases given
    rfl
  · cases given
    rfl
  · split at given
    · cases given
      unfold Value.coercedArithmetic
      split <;> rfl
    · cases given

end Walkthrough

namespace Walkthrough.JavaScript

variable {W : Type}

theorem Literal.value_plain (l : Literal) : l.value.isCollection = false := by
  cases l <;> rfl

theorem signed_plain {coercion : Bool} {operator : String} {apply : Float → Float}
    {v result : Value} (given : signed coercion operator apply v = .ok result) :
    result.isCollection = false := by
  unfold signed at given
  split at given
  · cases given
    rfl
  · split at given
    · cases given
      rfl
    · cases given

theorem unary_plain {features : Features} {v result : Value} {op : UnaryOp}
    (given : unary features v op = .ok result) : result.isCollection = false := by
  cases op with
  | not =>
      obtain ⟨b, -, made⟩ := exists_of_bind_ok given
      cases made
      rfl
  | negate | plus => exact signed_plain given

theorem binary_plain {features : Features} {h : Heap} {left right result : Value} {op : BinaryOp}
    (given : binary features h left right op = .ok result) : result.isCollection = false := by
  cases op with
  | add | subtract | multiply | divide | remainder => exact Value.arithmetic_plain given
  | less | lessEqual | greater | greaterEqual | looseEqual | looseNotEqual =>
      obtain ⟨b, -, made⟩ := exists_of_bind_ok given
      cases made
      rfl
  | strictEqual | strictNotEqual =>
      cases given
      rfl

section Elements

variable (L : Discipline W) {t : L.Stage} {h : Heap}

theorem readProperty_good {object result : Value} {property : String} (sound : L.sound t h)
    (good : L.good t object) (given : readProperty h object property = .ok result) :
    L.good t result := by
  cases object with
  | dict cell =>
      simp only [readProperty] at given
      split at given
      · next value found =>
          cases given
          exact L.entries sound good _ (mem_of_lookup found)
      · cases given
  | list _ | text _ =>
      simp only [readProperty] at given
      split at given
      · cases given
        exact L.plain rfl
      · cases given
  | number _ | boolean _ | nothing => cases given

theorem mem_of_itemAt? {α : Type} {items : List α} {i : Int} {item : α}
    (found : itemAt? items i = some item) : item ∈ items := by
  unfold itemAt? at found
  split at found
  · cases found
  · exact List.mem_of_getElem? found

theorem readElement_good {object index result : Value} (sound : L.sound t h)
    (good : L.good t object) (given : readElement h object index = .ok result) :
    L.good t result := by
  cases object with
  | list cell =>
      obtain ⟨i, -, rest⟩ := exists_of_bind_ok given
      cases found : itemAt? (h.items cell) i with
      | none =>
          rw [found] at rest
          cases rest
      | some item =>
          rw [found] at rest
          cases rest
          exact L.items sound good _ (mem_of_itemAt? found)
  | text s =>
      obtain ⟨i, -, rest⟩ := exists_of_bind_ok given
      split at rest
      · cases rest
        exact L.plain rfl
      · cases rest
  | dict cell => exact readProperty_good L sound good given
  | number _ | boolean _ | nothing => cases given

theorem writeProperty_written {object value : Value} {property : String} {h' : Heap}
    (sound : L.sound t h) (good : L.good t object) (fresh : L.good t value)
    (given : writeProperty h object property value = .ok h') : h.Written (L.good t) h' := by
  cases object with
  | dict cell =>
      cases given
      exact .entries good (L.putEntry_good fresh (L.entries sound good))
  | number _ | text _ | boolean _ | list _ | nothing => cases given

theorem writeElement_written {object index value : Value} {h' : Heap} (sound : L.sound t h)
    (good : L.good t object) (fresh : L.good t value)
    (given : writeElement h object index value = .ok h') : h.Written (L.good t) h' := by
  cases object with
  | list cell =>
      obtain ⟨i, -, rest⟩ := exists_of_bind_ok given
      split at rest
      · cases rest
      · split at rest
        · cases rest
          refine .items good fun x member => ?_
          rcases List.mem_append.mp member with old | last
          · exact L.items sound good x old
          · exact List.mem_singleton.mp last ▸ fresh
        · cases rest
          refine .items good fun x member => ?_
          rcases List.mem_or_eq_of_mem_set member with old | rfl
          · exact L.items sound good x old
          · exact fresh
  | dict cell => exact writeProperty_written L sound good fresh given
  | number _ | text _ | boolean _ | nothing => cases given

end Elements

section Writes

variable {h h' : Heap} {object index value : Value} {property : String} (distinct : h.Distinct)
include distinct

theorem writeProperty_distinct
    (given : writeProperty h object property value = .ok h') : h'.Distinct := by
  cases object with
  | dict cell =>
      cases given
      exact distinct.setEntries ((distinct cell).putEntry property value) cell
  | number _ | text _ | boolean _ | list _ | nothing => cases given

theorem writeElement_distinct
    (given : writeElement h object index value = .ok h') : h'.Distinct := by
  cases object with
  | list cell =>
      obtain ⟨i, -, rest⟩ := exists_of_bind_ok given
      split at rest
      · cases rest
      · split at rest
        · cases rest
          exact distinct
        · cases rest
          exact distinct
  | dict cell =>
      have written : writeProperty h (.dict cell) (h.output index) value = .ok h' := given
      exact writeProperty_distinct distinct written
  | number _ | text _ | boolean _ | nothing => cases given

end Writes

section Expressions

variable (L : StoreDiscipline W) {call : Caller W}

theorem conditionAt_holds {t : L.Stage} (v : Value) (pos : Position) :
    L.holds t (conditionAt v pos) L.any := by
  change L.holds t (Exec.consult pos fun f _ => v.condition f.truthiness) _
  exact L.consult pos (.condition v) fun _ _ _ _ _ => trivial

theorem arithmeticAt_holds {t : L.Stage} (op : ArithmeticOp) (left right : Value)
    (pos : Position) : L.holds t (arithmeticAt op left right pos) L.good := by
  change L.holds t (Exec.consult pos fun f h => Value.arithmetic h op left right f.coercion) _
  exact L.consult pos (.arithmetic op left right) fun _ _ _ _ given =>
    L.plain (Value.arithmetic_plain given)

theorem callNamed_holds (calls : L.Calls call) {t : L.Stage} (callee : Expr) {args : List Value}
    (pos : Position) (good : ∀ a ∈ args, L.good t a) :
    L.holds t (callNamed call callee args pos) L.good := by
  unfold callNamed
  split
  · next name _ => exact calls t name args pos good
  · exact L.raise _ pos

/-- What a store gives and what it stores are good. -/
def Stored.IsGood (t : L.Stage) (s : Stored) : Prop :=
  L.good t s.value ∧ L.good t s.stored

section Stores

variable {read : Exec W Value} {write : Value → Exec W String} {t : L.Stage} (pos : Position)

theorem assignWith_holds {value : Exec W Value} (op : AssignOp)
    (hv : ∀ t, L.holds t value L.good) (hr : ∀ t, L.holds t read L.good)
    (hw : ∀ t v, L.good t v → L.holds t (write v) L.any) :
    L.holds t (assignWith op value read write pos) (Stored.IsGood L) := by
  have written (t : L.Stage) (v : Value) (good : L.good t v) :=
    L.andThen (hw t v good) fun _ name le _ =>
      L.give (a := { value := v, stored := v, name }) (Q := Stored.IsGood L)
        ⟨L.later le good, L.later le good⟩
  refine L.andThen (hv t) fun t v _ good => ?_
  cases op with
  | assign => exact written t v good
  | add | subtract | multiply | divide =>
      refine L.andThen (hr t) fun _ current _ _ => ?_
      exact L.andThen (arithmeticAt_holds L _ current v pos) fun t v _ good => written t v good

theorem updateWith_holds (op : UpdateOp) (before : Bool) (hr : ∀ t, L.holds t read L.good)
    (hw : ∀ t v, L.good t v → L.holds t (write v) L.any) :
    L.holds t (updateWith op before read write pos) (Stored.IsGood L) := by
  refine L.andThen (hr t) fun _ current _ old => ?_
  refine L.andThen (arithmeticAt_holds L op.arithmetic current _ pos) fun t stored le new => ?_
  refine L.andThen (hw t stored new) fun _ name le' _ => L.give ⟨?_, L.later le' new⟩
  cases before with
  | true => exact L.later le' new
  | false => exact L.later (le.trans le') old

end Stores

mutual

theorem eval_holds (calls : L.Calls call) {t : L.Stage} :
    ∀ e : Expr, L.holds t (eval call e) L.good
  | .literal value pos => by
      rw [eval]
      exact L.give (L.plain value.value_plain)
  | .name name pos => by
      rw [eval]
      exact L.readName name pos
  | .array elements pos => by
      rw [eval]
      exact L.andThen (evalAll_holds calls elements) fun _ _ _ good => L.newList good
  | .object properties pos => by
      rw [eval]
      have none : ∀ e ∈ ([] : List (String × Value)), L.good t e.2 := nofun
      exact L.andThen (evalEntries_holds calls properties [] none .nil) fun _ _ _ found =>
        L.newDict found.1 fun _ => found.2
  | .unary op operand pos => by
      rw [eval]
      refine L.andThen (eval_holds calls operand) fun t v _ _ => ?_
      change L.holds t (Exec.consult pos fun f _ => unary f v op) _
      exact L.consult pos (unary_permissive v op) fun _ _ _ _ given => L.plain (unary_plain given)
  | .binary op left right pos => by
      rw [eval]
      refine L.andThen (eval_holds calls left) fun _ x _ _ => ?_
      refine L.andThen (eval_holds calls right) fun t y _ _ => ?_
      change L.holds t (Exec.consult pos fun f h => binary f h x y op) _
      exact L.consult pos (binary_permissive x y op) fun _ _ _ _ given =>
        L.plain (binary_plain given)
  | .logical op left right pos => by
      rw [eval]
      refine L.andThen (eval_holds calls left) fun _ x _ good => ?_
      refine L.andThen (conditionAt_holds L x pos) fun _ settled le _ => ?_
      split
      · exact L.give (L.later le good)
      · refine L.andThen (eval_holds calls right) fun _ y _ good => ?_
        exact L.andThen (conditionAt_holds L y pos) fun _ _ le _ => L.give (L.later le good)
  | .conditional test onTrue onFalse pos => by
      rw [eval]
      refine L.andThen (eval_holds calls test) fun _ v _ _ => ?_
      refine L.andThen (conditionAt_holds L v pos) fun _ holds _ _ => ?_
      split
      · exact eval_holds calls onTrue
      · exact eval_holds calls onFalse
  | .assignment op target value pos => by
      rw [eval]
      refine L.andThen (assignWith_holds L pos op (fun _ => eval_holds calls value)
        (fun _ => eval_holds calls target) fun _ => store_holds calls target)
        fun _ result _ good => ?_
      exact L.give good.1
  | .update op before target pos => by
      rw [eval]
      refine L.andThen (updateWith_holds L pos op before (fun _ => eval_holds calls target)
        fun _ => store_holds calls target) fun _ result _ good => ?_
      exact L.give good.1
  | .call callee args pos => by
      rw [eval]
      refine L.andThen (evalAll_holds calls args) fun _ values _ good => ?_
      split
      · refine L.andThen L.readHeap fun _ h _ _ => ?_
        exact L.andThen (L.log _) fun _ _ _ _ => L.give (L.plain rfl)
      · exact callNamed_holds L calls callee pos good
  | .member object property pos => by
      rw [eval]
      refine L.andThen (eval_holds calls object) fun t v _ good => ?_
      change L.holds t (Exec.consult pos fun _ h => readProperty h v property) _
      exact L.consult pos (.constant _) fun _ _ _ sound given =>
        readProperty_good L.toDiscipline sound good given
  | .index object key pos => by
      rw [eval]
      refine L.andThen (eval_holds calls object) fun _ v _ good => ?_
      refine L.andThen (eval_holds calls key) fun t k le _ => ?_
      change L.holds t (Exec.consult pos fun _ h => readElement h v k) _
      exact L.consult pos (.constant _) fun _ _ _ sound given =>
        readElement_good L.toDiscipline sound (L.later le good) given
  | .grouping inner pos => by
      rw [eval]
      exact eval_holds calls inner

theorem evalAll_holds (calls : L.Calls call) {t : L.Stage} :
    ∀ es : List Expr, L.holds t (evalAll call es) fun t vs => ∀ v ∈ vs, L.good t v
  | [] => by
      rw [evalAll]
      exact L.give nofun
  | e :: rest => by
      rw [evalAll]
      refine L.andThen (eval_holds calls e) fun _ v _ first => ?_
      refine L.andThen (evalAll_holds calls rest) fun _ vs le others => L.give ?_
      exact List.forall_mem_cons.mpr ⟨L.later le first, others⟩

theorem evalEntries_holds (calls : L.Calls call) {t : L.Stage} :
    ∀ (es : List (String × Expr)) (found : List (String × Value)),
      (∀ e ∈ found, L.good t e.2) → KeysDistinct found →
      L.holds t (evalEntries call found es) fun t vs => (∀ e ∈ vs, L.good t e.2) ∧ KeysDistinct vs
  | [], found, good, keys => by
      rw [evalEntries]
      exact L.give ⟨good, keys⟩
  | (key, e) :: rest, found, good, keys => by
      rw [evalEntries]
      refine L.andThen (eval_holds calls e) fun _ v le fresh => ?_
      have stillGood (entry) (member : entry ∈ found) := L.later le (good entry member)
      exact evalEntries_holds calls rest _ (L.putEntry_good fresh stillGood) (keys.putEntry key v)

theorem store_holds (calls : L.Calls call) {t : L.Stage} :
    ∀ (target : Expr) (v : Value), L.good t v → L.holds t (store call target v) L.any
  | .name name pos, v, fresh => by
      unfold store
      exact L.andThen (L.assign name pos fresh) fun _ _ _ _ => L.give trivial
  | .member object property pos, v, fresh => by
      unfold store
      refine L.andThen (eval_holds calls object) fun _ target le good => ?_
      exact L.rewriteThen pos (fun _ _ sound given =>
        writeProperty_written L.toDiscipline sound good (L.later le fresh) given)
        (fun _ _ => writeProperty_distinct) fun _ => L.give trivial
  | .index object key pos, v, fresh => by
      unfold store
      refine L.andThen (eval_holds calls object) fun _ target le₁ good => ?_
      refine L.andThen (eval_holds calls key) fun _ k le₂ _ => ?_
      exact L.rewriteThen pos (fun _ _ sound given => writeElement_written L.toDiscipline sound
        (L.later le₂ good) (L.later (le₁.trans le₂) fresh) given)
        (fun _ _ => writeElement_distinct)
        fun _ => L.andThen L.readHeap fun _ _ _ _ => L.give trivial
  | .literal .., _, _ | .array .., _, _ | .object .., _, _ | .unary .., _, _ | .binary .., _, _
  | .logical .., _, _ | .conditional .., _, _ | .assignment .., _, _ | .update .., _, _
  | .call .., _, _ | .grouping .., _, _ => by
      unfold store
      exact L.raise _ _

end

end Expressions

section Statements

variable (L : StatementDiscipline W) {call : Caller W}

theorem recordValue_holds {t : L.Stage} (s : Stmt) (v : Value) (step : Snapshot → Step)
    (quiet : ∀ shown, (step shown).opensRound = false)
    (shows : L.keyed → ∀ shown, shown.Distinct → (step shown).Distinct) :
    L.holds t (s.recordValue v step) L.any :=
  L.andThen (L.freeze v) fun _ shown _ distinct => L.record _ _ _ (quiet shown) fun keyed =>
    .success (distinct keyed) (shows keyed shown (distinct keyed))

theorem runCall_holds (calls : L.Calls call) {t : L.Stage} (s : Stmt) (callee : Expr)
    (args : List Expr) (pos : Position) : L.holds t (runCall call s callee args pos) L.any := by
  refine L.andThen (evalAll_holds L.toStoreDiscipline calls args) fun _ values _ good => ?_
  dsimp only
  split
  · refine L.andThen L.readHeap fun _ h _ _ => L.andThen (L.log _) fun _ _ _ _ => ?_
    exact L.record _ _ _ rfl fun _ => .success (.text _) (.one rfl (.text _))
  · refine L.andThen L.readHeap fun t h le sound => ?_
    have stillGood (a : Value) (member : a ∈ values) : L.good t a := L.later le (good a member)
    refine L.andThen (callNamed_holds L.toStoreDiscipline calls callee pos stillGood)
      fun _ result _ _ => ?_
    refine recordValue_holds L s result _ (fun _ => rfl) fun keyed _ given => ?_
    have passed (a : Value) (_ : a ∈ values) := (L.distinct keyed sound).freeze a
    exact List.forall_mem_cons.mpr ⟨given, List.forall_mem_map.mpr passed⟩

theorem runExpression_holds (calls : L.Calls call) {t : L.Stage} (s : Stmt) (e : Expr) :
    L.holds t (runExpression call s e) L.any := by
  have evaluated (e : Expr) (t : L.Stage) := eval_holds L.toStoreDiscipline calls (t := t) e
  have stores (target : Expr) (t : L.Stage) :=
    store_holds L.toStoreDiscipline calls (t := t) target
  cases e with
  | call callee args pos => exact runCall_holds L calls s callee args pos
  | assignment op target value pos =>
      refine L.andThen (assignWith_holds L.toStoreDiscipline pos op (evaluated value)
        (evaluated target) (stores target)) fun _ result _ _ => ?_
      exact recordValue_holds L s result.stored _ (fun _ => rfl) fun _ _ => .one rfl
  | update op before target pos =>
      refine L.andThen (updateWith_holds L.toStoreDiscipline pos op before (evaluated target)
        (stores target)) fun _ result _ _ => ?_
      exact recordValue_holds L s result.stored _ (fun _ => rfl) fun _ _ => .one rfl
  | literal | name | array | object | unary | binary | logical | conditional | member | index
  | grouping =>
      exact L.andThen (evaluated _ _) fun _ v _ _ =>
        recordValue_holds L s v _ (fun _ => rfl) fun _ _ => .one rfl

theorem conditional_holds (calls : L.Calls call) {t : L.Stage} (s : Stmt) (test : Expr) :
    L.holds t (runTest call s "if" test) L.any := by
  refine L.andThen (eval_holds L.toStoreDiscipline calls test) fun _ v _ _ => ?_
  refine L.andThen (conditionAt_holds L.toStoreDiscipline v test.pos) fun _ holds _ _ => ?_
  have quiet (_ : Snapshot) := Step.opensRound_if holds
  exact L.andThen (recordValue_holds L s v _ quiet fun _ _ _ => nofun) fun _ _ _ _ => L.give trivial

theorem runTest_opens (calls : L.Calls call) {t : L.Stage} (s : Stmt) (kind : String)
    (test : Expr) : L.Opens t (runTest call s kind test) id := by
  refine .andThen (eval_holds L.toStoreDiscipline calls test) fun _ v _ _ => ?_
  refine .andThen (conditionAt_holds L.toStoreDiscipline v test.pos) fun _ holds _ _ => .gives ?_
  refine .andThen (L.freeze v) fun _ shown _ distinct => .records _ _ _ (fun opened => ?_) ?_
  · exact (Bool.and_eq_true_iff.mp opened).1
  · exact fun keyed => .success (distinct keyed) nofun

mutual

theorem exec_holds (calls : L.Calls call) {t : L.Stage} :
    ∀ s : Stmt, L.holds t (exec call s) L.carries
  | .declare kind name value pos => by
      unfold exec
      have declared (t : L.Stage) (v : Value) (good : L.good t v) := L.andThen
        (L.declare name kind.isConstant pos good) fun _ _ _ _ => L.andThen
          (recordValue_holds L (.declare kind name value pos) v (.declare name ·) (fun _ => rfl)
            fun _ _ => .one rfl)
            fun _ _ _ _ => L.give (a := Completion.normal) (Q := L.carries) trivial
      cases value with
      | some e =>
          exact L.andThen (eval_holds L.toStoreDiscipline calls e) fun t v _ good =>
            declared t v good
      | none => exact declared t .nothing (L.plain rfl)
  | .expression value pos => by
      rw [exec]
      exact L.andThen (runExpression_holds L calls _ value) fun _ _ _ _ => L.give trivial
  | .block body pos => by
      rw [exec]
      exact L.inBlock fun _ _ => execAll_holds calls body
  | .conditional test onTrue onFalse pos => by
      unfold exec
      refine L.andThen (conditional_holds L calls _ test) fun _ holds _ _ => ?_
      split
      · exact exec_holds calls onTrue
      · match onFalse with
        | some other => exact exec_holds calls other
        | none => exact L.give trivial
  | .whileLoop test body pos => by
      rw [exec]
      exact L.inLoop fun _ _ => L.loopWhile pos (fun _ => runTest_opens L calls _ "while" test)
        (fun _ => exec_holds calls body) fun _ => L.give trivial
  | .forLoop start test update body pos => by
      unfold exec
      refine L.inBlock fun t _ => ?_
      have loop (t : L.Stage) : L.holds t (Exec.inLoop (Exec.iterationsLeft >>= Exec.loopWhile pos
          (match test with
            | some e => runTest call (.forLoop start test update body pos) "for" e
            | none => pure true)
          (exec call body)
          (match update with
            | some e => do let _ ← eval call e
            | none => pure ()))) L.carries := by
        refine L.inLoop fun _ _ => L.loopWhile pos (fun _ => ?_) (fun _ => exec_holds calls body)
          fun _ => ?_
        · split
          · exact runTest_opens L calls _ "for" _
          · exact .nothing (L.give trivial)
        · split
          · exact L.andThen (eval_holds L.toStoreDiscipline calls _) fun _ _ _ _ => L.give trivial
          · exact L.give trivial
      match start with
      | some first => exact L.andThen (exec_holds calls first) fun t _ _ _ => loop t
      | none => exact loop t
  | .forOf kind name iterable body pos => by
      rw [exec]
      refine L.andThen (eval_holds L.toStoreDiscipline calls iterable) fun _ v _ good => ?_
      refine L.andThen L.readHeap fun t h le sound => ?_
      split
      · exact L.raise _ _
      · exact L.andThen (L.record _ _ _ rfl fun _ => .silent rfl) fun _ _ _ _ => L.give trivial
      · next items _ given =>
          refine L.inLoop fun _ le₁ => L.loopOver fun (item, round) member _ le₂ => ?_
          have itemGood : L.good t item := L.iterable?_good sound (L.later le good) given item
            (List.fst_mem_of_mem_zipIdx member)
          refine L.round pos (fun _ le₃ => ?_) fun _ => exec_holds calls body
          have stillGood := L.later (le₁.trans (le₂.trans le₃)) itemGood
          refine .andThen (L.declare name kind.isConstant pos stillGood) fun _ _ _ _ => ?_
          refine .andThen (L.freeze item) fun _ _ _ distinct => ?_
          exact .records _ _ _ (fun _ => rfl) fun keyed =>
            .success (distinct keyed) (.one rfl (distinct keyed))
  | .function name params body pos => by
      rw [exec]
      exact L.raise _ _
  | .giveBack value pos => by
      rw [exec]
      refine L.andThen L.inFunction fun _ inside _ _ => L.unlessRaised _ pos fun t => ?_
      have recorded (t : L.Stage) (v : Value) (good : L.good t v) := L.andThen
        (recordValue_holds L (.giveBack value pos) v (.giveBack <| some ·) (fun _ => rfl)
          fun _ _ => .one rfl)
          fun _ _ le _ => L.give (a := Completion.returned v) (Q := L.carries) (L.later le good)
      cases value with
      | some e =>
          exact L.andThen (eval_holds L.toStoreDiscipline calls e) fun t v _ good =>
            recorded t v good
      | none => exact recorded t .nothing (L.plain rfl)
  | .leaveLoop pos => by
      rw [exec]
      refine L.andThen L.loopDepth fun _ depth _ _ => L.unlessRaised _ pos fun _ => ?_
      exact L.andThen (L.record _ _ _ rfl fun _ => .silent rfl) fun _ _ _ _ => L.give trivial
  | .nextIteration pos => by
      rw [exec]
      refine L.andThen L.loopDepth fun _ depth _ _ => L.unlessRaised _ pos fun _ => ?_
      exact L.andThen (L.record _ _ _ rfl fun _ => .silent rfl) fun _ _ _ _ => L.give trivial

theorem execAll_holds (calls : L.Calls call) {t : L.Stage} :
    ∀ body : List Stmt, L.holds t (execAll call body) L.carries
  | [] => by
      rw [execAll]
      exact L.give trivial
  | s :: rest => by
      rw [execAll]
      refine L.andThen (exec_holds calls s) fun _ c _ carries => ?_
      split
      · exact execAll_holds calls rest
      · exact L.give carries

end

end Statements

section Programs

/-- A program is held to every discipline to which its calls are. -/
theorem run_holds_of_calls (L : StatementDiscipline W) (reads : L.ReadsFunctions)
    (calls : ∀ functions, L.Calls (caller functions)) {t : L.Stage} (program : Program) :
    L.holds t program.run fun _ => L.Calls := by
  unfold Program.run
  refine reads (fun m => ?_) fun m m' same => by simp only [same]
  dsimp only
  split
  · next failure _ => exact L.raise failure.fault failure.position
  · next functions _ =>
      have ran := L.runAll (t := t) (fun _ => exec_holds L (calls functions)) program.statements
      exact L.andThen ran fun _ _ _ _ => L.give (calls functions)

variable (L : CallDiscipline W)

theorem caller_holds (functions : List (Function Stmt)) : L.Calls (caller functions) :=
  L.callFunction (fun _ _ good => L.give good)
    (fun _ calls _ => exec_holds L.toStatementDiscipline calls) functions callLimit

end Programs
end Walkthrough.JavaScript
