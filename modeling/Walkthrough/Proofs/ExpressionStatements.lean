import Walkthrough.Proofs.Visits

/-! Expressions as statements. A statement that is an expression does what the expression does and
records one frame of it. Calls, stores and the console have a way of their own as statements, since
their frames tell more than a value; that way never parts from the one inside expressions. -/

namespace Walkthrough

variable {W : Type}

/-- The second state has one frame more than the first, which shows a value of a statement that
succeeded, and the time of that frame has passed. -/
structure Machine.Gains (position : Position) (kind : String) (shown : Snapshot)
    (m m' : Machine W) : Prop where
  frames : ∃ step, m'.frames = m.frames.push
    { time := m.host.time
      line := position.line
      code := m.lineText position.line
      bindings := m.scopes.snapshot m.heap
      ending := .success kind (some shown) step }
  time : m'.host.time = m.host.time + m.features.timePerFrame
  scopes : m'.scopes = m.scopes
  heap : m'.heap = m.heap
  console : m'.host.console = m.host.console
  calls : m'.calls = m.calls
  iterations : m'.iterations = m.iterations

/-- A statement echoes an evaluation from a state: where the evaluation fails, it fails in the same
way; where that gives a value, it gains one frame, and only the time of this frame can make it fail.
`Shows` says of a value, and of the state in which it was given, what the frame shows. -/
structure Echoes (position : Position) (kind : String) (statement : Exec W Completion)
    (evaluation : Exec W Value) (Shows : Value → Machine W → Snapshot → Prop)
    (m : Machine W) : Prop where
  fails : ∀ failure, (∃ m', statement m = .error failure m') ↔
    (∃ m', evaluation m = .error failure m') ∨
      ∃ v m', evaluation m = .ok v m' ∧
        m'.features.maxTime < m'.host.time + m'.features.timePerFrame ∧
        failure = ⟨.outOfTime m'.features.maxTime.toNat, position⟩
  stays : ∀ failure m', evaluation m = .error failure m' → statement m = .error failure m'
  gains : ∀ v m', evaluation m = .ok v m' → ∃ shown m'', Shows v m' shown ∧
    m'.Gains position kind shown m'' ∧
      (statement m = .ok .normal m'' ∨ ∃ failure, statement m = .error failure m'')

section Sequences

variable {position : Position} {kind : String} {m : Machine W}

theorem Echoes.imp {statement : Exec W Completion} {evaluation : Exec W Value}
    {Shows Shows' : Value → Machine W → Snapshot → Prop}
    (h : Echoes position kind statement evaluation Shows m)
    (weaker : ∀ v m' shown, Shows v m' shown → Shows' v m' shown) :
    Echoes position kind statement evaluation Shows' m := by
  refine ⟨h.fails, h.stays, ?_⟩
  intro v m' given
  obtain ⟨shown, m'', shows, gained⟩ := h.gains v m' given
  exact ⟨shown, m'', weaker v m' shown shows, gained⟩

end Sequences

namespace JikiScript

end JikiScript

namespace JavaScript

/-- What the frame of an expression statement shows, where the expression was evaluated from a state
and gave a value in another one. A call of `console.log` shows the text that it has written, and an
update behind its target the value that is stored, since its own value is the old one. -/
inductive Shows (call : Caller W) (m : Machine W) : Expr → Value → Machine W → Snapshot → Prop
  | output {callee : Expr} {args : List Expr} {pos : Position} {values : List Value}
      {m₁ : Machine W} : callee.dottedName? = some consoleLog →
      evalAll call args m = .ok values m₁ →
      Shows call m (.call callee args pos) .nothing
        { m₁ with host := m₁.host.log (consoleText m₁.heap values) }
        (.text (consoleText m₁.heap values))
  | stored {op : UpdateOp} {target : Expr} {pos : Position} {current stored : Value}
      {m₁ m' : Machine W} {name : String} : eval call target m = .ok current m₁ →
      Value.arithmetic m₁.heap op.arithmetic current (.number 1.0) m₁.features.coercion =
        .ok stored →
      store call target stored m₁ = .ok name m' →
      Shows call m (.update op false target pos) current m' (m'.heap.freeze stored)
  | value {e : Expr} {v : Value} {m' : Machine W} :
      (∀ callee args pos, e = .call callee args pos → callee.dottedName? ≠ some consoleLog) →
      (∀ op target pos, e ≠ .update op false target pos) →
      Shows call m e v m' (m'.heap.freeze v)

variable (call : Caller W) (pos : Position) (m : Machine W)

section Stores

variable {call m} {m' : Machine W} {target : Expr} {result : Stored}

end Stores

end JavaScript

end Walkthrough
