import Walkthrough.Proofs.WellFormed

/-! How often a store evaluates the parts of its target. To evaluate them is to visit the target,
and a visit finds a spot, which can be read and written. A plain assignment visits its target once.
A store that combines visits it once to read and once more to write, and nothing but the state
between the two visits can make them find different spots. -/

namespace Walkthrough

/-- An evaluation that gives a value leaves the run as it is. -/
def Exec.Looks {W α : Type} (x : Exec W α) : Prop :=
  ∀ m a m', x m = .ok a m' → m' = m

namespace Exec.Looks

variable {W α β : Type}

theorem bind {x : Exec W α} {k : α → Exec W β} (first : Looks x) (rest : ∀ a, Looks (k a)) :
    Looks (x >>= k) := by
  intro m b m'' ended
  obtain ⟨a, m', start, finish⟩ := bind_eq_ok.mp ended
  rw [rest a m' b m'' finish, first m a m' start]

theorem pure (a : α) : Looks (pure a : Exec W α) := by
  intro m b m' ended
  cases ended
  rfl

theorem features : Looks (Exec.features : Exec W Features) := by
  intro m b m' ended
  cases ended
  rfl

theorem heap : Looks (Exec.heap : Exec W Heap) := by
  intro m b m' ended
  cases ended
  rfl

theorem orRaise (position : Position) (result : Except Fault α) :
    Looks (Exec.orRaise position result : Exec W α) := by
  intro m b m' ended
  rw [orRaise_apply] at ended
  cases result with
  | ok a =>
      cases ended
      rfl
  | error fault => cases ended

theorem readName (name : String) (position : Position) :
    Looks (Exec.readName name position : Exec W Value) :=
  bind (fun m _ _ ended => by cases ended; rfl) fun m => orRaise position (m.scopes.get name)

end Exec.Looks

namespace JavaScript

variable {W : Type}

/-- What a target with parts was found to be: a property of a value, or an element of it. -/
inductive Spot where
  | property (owner : Value) (name : String)
  | element (owner key : Value)

namespace Spot

def read (h : Heap) : Spot → Except Fault Value
  | .property owner name => readProperty h owner name
  | .element owner key => readElement h owner key

def write (h : Heap) : Spot → Value → Except Fault Heap
  | .property owner name, value => writeProperty h owner name value
  | .element owner key, value => writeElement h owner key value

def told (h : Heap) (owner : String) : Spot → String
  | .property _ name => owner ++ "." ++ name
  | .element _ key => owner ++ "[" ++ h.display key ++ "]"

end Spot

inductive Target where
  | member (object : Expr) (property : String) (pos : Position)
  | index (object key : Expr) (pos : Position)

namespace Target

def place : Target → Place
  | .member object property pos => .member object property pos
  | .index object key pos => .index object key pos

def object : Target → Expr
  | .member object _ _ => object
  | .index object _ _ => object

def pos : Target → Position
  | .member _ _ pos => pos
  | .index _ _ pos => pos

/-- Evaluates the parts, each of them once and from left to right. -/
def visit (call : Caller W) : Target → Exec W Spot
  | .member object property _ => do
    let owner ← eval call object
    return .property owner property
  | .index object key _ => do
    let owner ← eval call object
    let k ← eval call key
    return .element owner k

def readAt (t : Target) (spot : Spot) : Exec W Value := do
  Exec.orRaise t.pos (spot.read (← Exec.heap))

def writeAt (t : Target) (value : Value) (spot : Spot) : Exec W String := do
  Exec.rewrite t.pos (spot.write · value)
  return spot.told (← Exec.heap) (t.object.dottedName?.getD "")

theorem eval_expr (call : Caller W) (t : Target) :
    eval call t.place.expr = t.visit call >>= t.readAt := by
  cases t with
  | member object property pos =>
      rw [place, Place.expr, eval, visit, bind_assoc]
      simp only [pure_bind]
      rfl
  | index object key pos =>
      rw [place, Place.expr, eval, visit, bind_assoc]
      simp only [bind_assoc, pure_bind]
      rfl

theorem write_place (call : Caller W) (t : Target) (value : Value) :
    t.place.write call value = t.visit call >>= t.writeAt value := by
  cases t with
  | member object property pos =>
      rw [place, Place.write, visit, bind_assoc]
      simp only [pure_bind, writeAt, Exec.rewrite, bind_assoc]
      rfl
  | index object key pos =>
      rw [place, Place.write, visit, bind_assoc]
      simp only [bind_assoc, pure_bind, writeAt, Exec.rewrite]
      rfl

variable {call : Caller W} {t : Target} {m m' : Machine W} {spot : Spot} {v : Value}

theorem readAt_eq_ok :
    t.readAt spot m = .ok v m' ↔ spot.read m.heap = .ok v ∧ m' = m := by
  change Exec.orRaise t.pos (spot.read m.heap) m = _ ↔ _
  rw [Exec.orRaise_apply]
  cases spot.read m.heap with
  | error fault =>
      constructor
      · intro ended
        cases ended
      · rintro ⟨held, -⟩
        cases held
  | ok current =>
      constructor
      · intro ended
        cases ended
        exact ⟨rfl, rfl⟩
      · rintro ⟨⟨⟩, rfl⟩
        rfl

theorem writeAt_eq_ok {name : String} :
    t.writeAt v spot m = .ok name m' ↔
      ∃ heap, spot.write m.heap v = .ok heap ∧ m' = { m with heap } ∧
        name = spot.told heap (t.object.dottedName?.getD "") := by
  unfold writeAt
  rw [Exec.bind_apply, Exec.rewrite_apply]
  cases spot.write m.heap v with
  | error fault =>
      constructor
      · intro ended
        cases ended
      · rintro ⟨heap, written, -⟩
        cases written
  | ok heap =>
      constructor
      · intro ended
        cases ended
        exact ⟨heap, rfl, rfl, rfl⟩
      · rintro ⟨_, ⟨⟩, rfl, rfl⟩
        rfl

/-- A visit from one state to another finds a spot that reads as the value. -/
structure Reads (call : Caller W) (t : Target) (m : Machine W) (spot : Spot) (v : Value)
    (m' : Machine W) : Prop where
  visited : t.visit call m = .ok spot m'
  held : spot.read m'.heap = .ok v

/-- Once a visit has found the spot, the value is written there. -/
def Stores (call : Caller W) (t : Target) (m : Machine W) (spot : Spot) (v : Value)
    (m' : Machine W) : Prop :=
  ∃ m₁ heap, t.visit call m = .ok spot m₁ ∧ spot.write m₁.heap v = .ok heap ∧
    m' = { m₁ with heap }

theorem reads_of_eval (ended : eval call t.place.expr m = .ok v m') :
    ∃ spot, t.Reads call m spot v m' := by
  rw [eval_expr] at ended
  obtain ⟨spot, m₁, visited, read⟩ := Exec.bind_eq_ok.mp ended
  obtain ⟨held, rfl⟩ := readAt_eq_ok.mp read
  exact ⟨spot, visited, held⟩

theorem stores_of_write {name : String} (ended : t.place.write call v m = .ok name m') :
    ∃ spot, t.Stores call m spot v m' := by
  rw [write_place] at ended
  obtain ⟨spot, m₁, visited, wrote⟩ := Exec.bind_eq_ok.mp ended
  obtain ⟨heap, written, rfl, -⟩ := writeAt_eq_ok.mp wrote
  exact ⟨spot, m₁, heap, visited, written, rfl⟩

/-- The target is combined with a value: it is read at one visit, and the result is stored at
another, which starts where the first ended. -/
def Combines (call : Caller W) (t : Target) (op : ArithmeticOp) (right : Value) (m : Machine W)
    (stored : Value) (m' : Machine W) : Prop :=
  ∃ spot current m₁ spot', t.Reads call m spot current m₁ ∧
    Value.arithmetic m₁.heap op current right m₁.features.coercion = .ok stored ∧
    t.Stores call m₁ spot' stored m'

/-- The target is combined with a value at one visit, and stored where it was read. -/
def CombinesOnce (call : Caller W) (t : Target) (op : ArithmeticOp) (right : Value)
    (m : Machine W) (stored : Value) (m' : Machine W) : Prop :=
  ∃ spot current m₁ heap, t.Reads call m spot current m₁ ∧
    Value.arithmetic m₁.heap op current right m₁.features.coercion = .ok stored ∧
    spot.write m₁.heap stored = .ok heap ∧ m' = { m₁ with heap }

/-- The second visit is the first over again, where the first left the run as it was. -/
theorem Combines.once {op : ArithmeticOp} {right stored : Value}
    (combines : t.Combines call op right m stored m')
    (looks : ∀ spot m₁, t.visit call m = .ok spot m₁ → m₁ = m) :
    t.CombinesOnce call op right m stored m' := by
  obtain ⟨spot, current, m₁, spot', reads, computed, m₂, heap, visited, written, rfl⟩ := combines
  obtain rfl := looks spot m₁ reads.visited
  cases reads.visited.symm.trans visited
  exact ⟨spot, current, m₁, heap, reads, computed, written, rfl⟩

end Target

section Quiet

/-- The expression calls nothing, stores nothing and makes no list or object. -/
def Expr.isQuiet : Expr → Bool
  | .literal .. => true
  | .name .. => true
  | .unary _ operand _ => operand.isQuiet
  | .binary _ left right _ => left.isQuiet && right.isQuiet
  | .logical _ left right _ => left.isQuiet && right.isQuiet
  | .conditional test onTrue onFalse _ => test.isQuiet && onTrue.isQuiet && onFalse.isQuiet
  | .member owner _ _ => owner.isQuiet
  | .index owner key _ => owner.isQuiet && key.isQuiet
  | .grouping inner _ => inner.isQuiet
  | _ => false

def Target.isQuiet : Target → Bool
  | .member object _ _ => object.isQuiet
  | .index object key _ => object.isQuiet && key.isQuiet

open Exec

theorem looks_conditionAt (v : Value) (pos : Position) :
    Looks (conditionAt v pos : Exec W Bool) :=
  .bind .features fun _ => .orRaise pos _

theorem looks_of_isQuiet (call : Caller W) {e : Expr} (quiet : e.isQuiet = true) :
    Looks (eval call e) := by
  fun_induction Expr.isQuiet e with
  | case1 => exact .pure _
  | case2 name pos => exact .readName name pos
  | case3 op operand pos ih =>
      exact .bind (ih quiet) fun _ => .bind .features fun _ => .orRaise pos _
  | case4 op left right pos ihLeft ihRight =>
      obtain ⟨quietLeft, quietRight⟩ := Bool.and_eq_true_iff.mp quiet
      exact .bind (ihLeft quietLeft) fun _ => .bind (ihRight quietRight) fun _ =>
        .bind .features fun _ => .bind .heap fun _ => .orRaise pos _
  | case5 op left right pos ihLeft ihRight =>
      obtain ⟨quietLeft, quietRight⟩ := Bool.and_eq_true_iff.mp quiet
      refine .bind (ihLeft quietLeft) fun x => .bind (looks_conditionAt x pos) fun holds => ?_
      split
      · exact .pure x
      · exact .bind (ihRight quietRight) fun y => .bind (looks_conditionAt y pos) fun _ => .pure y
  | case6 test onTrue onFalse pos ihTest ihTrue ihFalse =>
      obtain ⟨quietFirst, quietFalse⟩ := Bool.and_eq_true_iff.mp quiet
      obtain ⟨quietTest, quietTrue⟩ := Bool.and_eq_true_iff.mp quietFirst
      refine .bind (ihTest quietTest) fun v => .bind (looks_conditionAt v pos) fun holds => ?_
      split
      · exact ihTrue quietTrue
      · exact ihFalse quietFalse
  | case7 object property pos ih =>
      exact .bind (ih quiet) fun _ => .bind .heap fun _ => .orRaise pos _
  | case8 object key pos ihObject ihKey =>
      obtain ⟨quietObject, quietKey⟩ := Bool.and_eq_true_iff.mp quiet
      exact .bind (ihObject quietObject) fun _ => .bind (ihKey quietKey) fun _ =>
        .bind .heap fun _ => .orRaise pos _
  | case9 inner pos ih => exact ih quiet
  | case10 => cases quiet

theorem Target.looks_visit (call : Caller W) {t : Target} (quiet : t.isQuiet = true) :
    Looks (t.visit call) := by
  cases t with
  | member object property pos => exact .bind (looks_of_isQuiet call quiet) fun _ => .pure _
  | index object key pos =>
      obtain ⟨quietObject, quietKey⟩ := Bool.and_eq_true_iff.mp quiet
      exact .bind (looks_of_isQuiet call quietObject) fun _ =>
        .bind (looks_of_isQuiet call quietKey) fun _ => .pure _

end Quiet

section Stores

variable {call : Caller W} {t : Target} {m m' : Machine W}

theorem arithmeticAt_eq_ok {op : ArithmeticOp} {left right v : Value} {pos : Position} :
    (arithmeticAt op left right pos : Exec W Value) m = .ok v m' ↔
      Value.arithmetic m.heap op left right m.features.coercion = .ok v ∧ m' = m := by
  change Exec.orRaise pos (Value.arithmetic m.heap op left right m.features.coercion) m = _ ↔ _
  rw [Exec.orRaise_apply]
  cases Value.arithmetic m.heap op left right m.features.coercion with
  | error fault =>
      constructor
      · intro ended
        cases ended
      · rintro ⟨computed, -⟩
        cases computed
  | ok v =>
      constructor
      · intro ended
        cases ended
        exact ⟨rfl, rfl⟩
      · rintro ⟨⟨⟩, rfl⟩
        rfl

theorem visits_of_assign {value : Expr} {pos : Position} {result : Stored}
    (ended : (Storing.assignment .assign t.place value pos).run call m = .ok result m') :
    ∃ m₁ spot, eval call value m = .ok result.stored m₁ ∧
      t.Stores call m₁ spot result.stored m' := by
  obtain ⟨v, m₁, valued, rest⟩ := Exec.bind_eq_ok.mp ended
  obtain ⟨_, _, ⟨⟩, rest⟩ := Exec.bind_eq_ok.mp rest
  obtain ⟨name, m₂, wrote, ⟨⟩⟩ := Exec.bind_eq_ok.mp rest
  obtain ⟨spot, stores⟩ := Target.stores_of_write wrote
  exact ⟨m₁, spot, valued, stores⟩

theorem combines_of_assign {op : AssignOp} {a : ArithmeticOp} {value : Expr} {pos : Position}
    {result : Stored} (combined : op.arithmetic? = some a)
    (ended : (Storing.assignment op t.place value pos).run call m = .ok result m') :
    ∃ right m₁, eval call value m = .ok right m₁ ∧
      t.Combines call a right m₁ result.stored m' := by
  simp only [Storing.run, assignWith, combined] at ended
  obtain ⟨right, m₁, valued, rest⟩ := Exec.bind_eq_ok.mp ended
  obtain ⟨current, m₂, read, rest⟩ := Exec.bind_eq_ok.mp rest
  obtain ⟨stored, m₃, computing, rest⟩ := Exec.bind_eq_ok.mp rest
  obtain ⟨name, m₄, wrote, ⟨⟩⟩ := Exec.bind_eq_ok.mp rest
  obtain ⟨spot, reads⟩ := Target.reads_of_eval read
  obtain ⟨computed, rfl⟩ := arithmeticAt_eq_ok.mp computing
  obtain ⟨spot', stores⟩ := Target.stores_of_write wrote
  exact ⟨right, m₁, valued, spot, current, m₃, spot', reads, computed, stores⟩

theorem combines_of_update {op : UpdateOp} {before : Bool} {pos : Position} {result : Stored}
    (ended : (Storing.update op before t.place pos).run call m = .ok result m') :
    t.Combines call op.arithmetic (.number 1.0) m result.stored m' := by
  obtain ⟨current, m₁, read, rest⟩ := Exec.bind_eq_ok.mp ended
  obtain ⟨stored, m₂, computing, rest⟩ := Exec.bind_eq_ok.mp rest
  obtain ⟨name, m₃, wrote, ⟨⟩⟩ := Exec.bind_eq_ok.mp rest
  obtain ⟨spot, reads⟩ := Target.reads_of_eval read
  obtain ⟨computed, rfl⟩ := arithmeticAt_eq_ok.mp computing
  obtain ⟨spot', stores⟩ := Target.stores_of_write wrote
  exact ⟨spot, current, m₂, spot', reads, computed, stores⟩

end Stores

/-- A plain assignment to a member or an element evaluates the parts of its target once. Every other
store evaluates them twice, the second time from where the first has left the run. If that is as it
was, which it is for quiet parts, then it is one visit, and what was read is written to. -/
theorem stores_visit_targets (call : Caller W) (t : Target) :
    (∀ storing : Storing,
      eval call storing.expr = (do return (← storing.run call).value) ∧
      ∀ s, runExpression call s storing.expr = storing.run call >>= fun result =>
        s.recordValue result.stored (.assign result.name ·)) ∧
    (∀ value pos m result m',
      (Storing.assignment .assign t.place value pos).run call m = .ok result m' →
      ∃ m₁ spot, eval call value m = .ok result.stored m₁ ∧
        t.Stores call m₁ spot result.stored m') ∧
    (∀ op a value pos m result m', op.arithmetic? = some a →
      (Storing.assignment op t.place value pos).run call m = .ok result m' →
      ∃ right m₁, eval call value m = .ok right m₁ ∧
        t.Combines call a right m₁ result.stored m' ∧
        ((∀ spot m₂, t.visit call m₁ = .ok spot m₂ → m₂ = m₁) →
          t.CombinesOnce call a right m₁ result.stored m')) ∧
    (∀ op before pos m result m',
      (Storing.update op before t.place pos).run call m = .ok result m' →
      t.Combines call op.arithmetic (.number 1.0) m result.stored m' ∧
        ((∀ spot m₁, t.visit call m = .ok spot m₁ → m₁ = m) →
          t.CombinesOnce call op.arithmetic (.number 1.0) m result.stored m')) ∧
    (t.isQuiet = true → ∀ m spot m', t.visit call m = .ok spot m' → m' = m) := by
  refine ⟨fun storing => ⟨storing.eval_expr call, fun s => storing.runExpression_expr call s⟩,
    fun _ _ _ _ _ => visits_of_assign, ?_, ?_, Target.looks_visit call⟩
  · intro op a value pos m result m' combined ended
    obtain ⟨right, m₁, valued, combines⟩ := combines_of_assign combined ended
    exact ⟨right, m₁, valued, combines, combines.once⟩
  · intro op before pos m result m' ended
    have combines := combines_of_update ended
    exact ⟨combines, combines.once⟩

section Counting

/-- A list of three numbers, and a variable to go through it. -/
def counting : Machine Unit :=
  let fresh := Machine.initial {} "" .visible [] 0 ()
  let locals := Table.ofList [("a", (⟨.list 0, false⟩ : Binding)), ("n", ⟨.number 0.0, false⟩)]
  { fresh with
    heap := { lists := #[[.number 1.0, .number 2.0, .number 3.0]] }
    scopes := { fresh.scopes with globals := { locals } } }

def nextElement : Target :=
  .index (.name "a" {}) (.update .increment false (.name "n" {}) {}) {}

def thisElement : Target :=
  .index (.name "a" {}) (.name "n" {}) {}

def ten : Expr :=
  .literal (.number 10.0) {}

/-- What the list and the variable have become. -/
def isAt (items : List Value) (n : Value) (m : Machine Unit) : Bool :=
  m.heap.items 0 == items && (m.scopes.lookup? "n").map (·.value) == some n

theorem exists_of_stored (storing : Storing) (p : Machine Unit → Bool)
    (holds : (match storing.run (caller []) counting with
      | .ok _ m' => p m'
      | .error _ _ => false) = true) :
    ∃ result m', storing.run (caller []) counting = .ok result m' ∧ p m' = true := by
  split at holds
  · next result m' ended => exact ⟨result, m', ended, holds⟩
  · cases holds

theorem elements_are_visited :
    (∃ result m' m₁ spot,
      (Storing.assignment .assign nextElement.place ten {}).run (caller []) counting =
        .ok result m' ∧
      isAt [.number 10.0, .number 2.0, .number 3.0] (.number 1.0) m' = true ∧
      nextElement.Stores (caller []) m₁ spot result.stored m') ∧
    (∃ result m' right m₁,
      (Storing.assignment .add thisElement.place ten {}).run (caller []) counting =
        .ok result m' ∧
      isAt [.number 11.0, .number 2.0, .number 3.0] (.number 0.0) m' = true ∧
      thisElement.CombinesOnce (caller []) .add right m₁ result.stored m') ∧
    (∃ result m',
      (Storing.update .decrement true thisElement.place {}).run (caller []) counting =
        .ok result m' ∧
      isAt [.number 0.0, .number 2.0, .number 3.0] (.number 0.0) m' = true ∧
      thisElement.CombinesOnce (caller []) .subtract (.number 1.0) counting result.stored m') := by
  obtain ⟨-, assigns, -⟩ := stores_visit_targets (W := Unit) (caller []) nextElement
  obtain ⟨-, -, combines, updates, quiet⟩ :=
    stores_visit_targets (W := Unit) (caller []) thisElement
  refine ⟨?_, ?_, ?_⟩
  · obtain ⟨result, m', ended, found⟩ :=
      exists_of_stored (.assignment .assign nextElement.place ten {})
        (isAt [.number 10.0, .number 2.0, .number 3.0] (.number 1.0)) (by decide +kernel)
    obtain ⟨m₁, spot, -, stores⟩ := assigns _ _ _ _ _ ended
    exact ⟨result, m', m₁, spot, ended, found, stores⟩
  · obtain ⟨result, m', ended, found⟩ :=
      exists_of_stored (.assignment .add thisElement.place ten {})
        (isAt [.number 11.0, .number 2.0, .number 3.0] (.number 0.0)) (by decide +kernel)
    obtain ⟨right, m₁, -, -, once⟩ := combines .add .add _ _ _ _ _ rfl ended
    exact ⟨result, m', right, m₁, ended, found, once (quiet rfl m₁)⟩
  · obtain ⟨result, m', ended, found⟩ :=
      exists_of_stored (.update .decrement true thisElement.place {})
        (isAt [.number 0.0, .number 2.0, .number 3.0] (.number 0.0)) (by decide +kernel)
    obtain ⟨-, once⟩ := updates _ _ _ _ _ _ ended
    exact ⟨result, m', ended, found, once (quiet rfl counting)⟩

/-- The program that adds ten to the next element. -/
def addingToNext : String :=
  "let a = [1, 2, 3];\nlet n = 0;\na[n++] += 10;"

/-- An index that counts is counted twice by a store that combines: the sum of ten and the first
element is stored in the second. -/
theorem next_element_is_visited_twice :
    (∃ result m',
      (Storing.assignment .add nextElement.place ten {}).run (caller []) counting =
        .ok result m' ∧
      isAt [.number 1.0, .number 11.0, .number 3.0] (.number 2.0) m' = true ∧
      ∀ right m₁, eval (caller []) ten counting = .ok right m₁ →
        ¬ nextElement.CombinesOnce (caller []) .add right m₁ result.stored m') ∧
    let o : Outcome Unit := Language.interpret .javaScript addingToNext { world := () }
    o.success = true ∧
      o.frames.getLast?.map (fun frame => (frame.bindings.map (·.output)).entries) =
        some [("a", "[1, 11, 3]"), ("n", "2")] := by
  refine ⟨?_, by decide +kernel, by decide +kernel⟩
  obtain ⟨result, m', ended, found⟩ :=
    exists_of_stored (.assignment .add nextElement.place ten {})
      (isAt [.number 1.0, .number 11.0, .number 3.0] (.number 2.0)) (by decide +kernel)
  refine ⟨result, m', ended, found, fun right m₁ valued once => ?_⟩
  have counted : (match nextElement.visit (caller []) counting with
      | .ok _ m => decide ((m.scopes.lookup? "n").map (·.value) = some (.number 1.0))
      | .error _ _ => false) = true := by decide +kernel
  obtain ⟨-, n⟩ := Bool.and_eq_true_iff.mp found
  obtain ⟨spot, current, m₂, heap, reads, -, -, rfl⟩ := once
  cases valued
  rw [reads.visited] at counted
  have twice := (of_decide_eq_true counted).symm.trans (beq_iff_eq.mp n)
  exact absurd twice (by decide +kernel)

end Counting
end JavaScript
end Walkthrough
