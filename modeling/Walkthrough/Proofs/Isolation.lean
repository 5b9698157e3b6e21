import Walkthrough.Proofs.Reachable

/-! Calls of JikiScript are isolated. A function gets copies of its arguments in cells of their own
and sees no frame but its own, so that everything it can reach was made since it was called. It may
change that; the rest, which is all that its callers can reach, stays as it was. -/

namespace Walkthrough

namespace Scopes

theorem seesGlobals_of_hidden {s : Scopes} (hidden : s.access = .hidden) :
    s.seesGlobals = false := by
  unfold seesGlobals
  rw [hidden]
  exact Bool.and_false _

theorem binds_of_hidden {s : Scopes} (hidden : s.access = .hidden) {name : String} {b : Binding}
    (found : s.lookup? name = some b) : s.current.Binds b := by
  unfold lookup? at found
  rw [seesGlobals_of_hidden hidden] at found
  split at found
  · next own =>
      cases found
      exact CallFrame.binds_of_get? own
  · cases found

end Scopes

namespace Machine

variable {W : Type} {low : Heap.Mark} {m m' m'' : Machine W}

/-- Names and cells are as they were; there may be new cells. -/
structure Untouched (m m' : Machine W) : Prop where
  scopes : m'.scopes = m.scopes
  grown : m.heap.mark ≤ m'.heap.mark
  cells : Heap.Kept m.heap.mark m.heap m'.heap

theorem Untouched.refl (m : Machine W) : m.Untouched m :=
  ⟨rfl, le_rfl, .refl _ _⟩

theorem Untouched.trans (first : m.Untouched m') (second : m'.Untouched m'') : m.Untouched m'' where
  scopes := second.scopes.trans first.scopes
  grown := first.grown.trans second.grown
  cells := first.cells.trans (second.cells.narrow first.grown)

/-- Nothing that the current frame reaches is older than the mark. -/
structure Confined (low : Heap.Mark) (m : Machine W) : Prop where
  hidden : m.scopes.access = .hidden
  older : low ≤ m.heap.mark
  names : ∀ b, m.scopes.current.Binds b → b.value.MadeIn low m.heap.mark
  cells : m.heap.Closed low

/-- What is older than the mark is as it was, and so are all frames but the current one. -/
structure Framed (low : Heap.Mark) (m m' : Machine W) : Prop where
  scopes : ∃ frame, m'.scopes = m.scopes.setCurrent frame
  grown : m.heap.mark ≤ m'.heap.mark
  cells : Heap.Kept low m.heap m'.heap

theorem Framed.refl (low : Heap.Mark) (m : Machine W) : m.Framed low m :=
  ⟨⟨_, m.scopes.setCurrent_current.symm⟩, le_rfl, .refl _ _⟩

theorem Framed.trans (first : m.Framed low m') (second : m'.Framed low m'') : m.Framed low m'' where
  scopes := by
    obtain ⟨frame, same⟩ := first.scopes
    obtain ⟨frame', same'⟩ := second.scopes
    exact ⟨frame', by rw [same', same, Scopes.setCurrent_setCurrent]⟩
  grown := first.grown.trans second.grown
  cells := first.cells.trans second.cells

theorem Confined.changeHeap (confined : m.Confined low) {heap : Heap}
    (grown : m.heap.mark ≤ heap.mark) (cells : Heap.Kept low m.heap heap)
    (closed : heap.Closed low) :
    m.Framed low { m with heap } ∧ Confined low { m with heap } := by
  refine ⟨⟨⟨_, m.scopes.setCurrent_current.symm⟩, grown, cells⟩, ?_⟩
  exact
    { hidden := confined.hidden
      older := confined.older.trans grown
      names := fun b bound => (confined.names b bound).widen le_rfl grown
      cells := closed }

theorem Confined.changeFrame (confined : m.Confined low) {frame : CallFrame}
    (names : ∀ b, frame.Binds b → b.value.MadeIn low m.heap.mark) :
    m.Framed low { m with scopes := m.scopes.setCurrent frame } ∧
      Confined low { m with scopes := m.scopes.setCurrent frame } := by
  refine ⟨⟨⟨frame, rfl⟩, le_rfl, .refl _ _⟩, ?_⟩
  exact
    { hidden := (m.scopes.setCurrent_access frame).trans confined.hidden
      older := confined.older
      names := (m.scopes.current_setCurrent frame).symm ▸ names
      cells := confined.cells }

theorem confined_openCall (hidden : m.scopes.access = .hidden) :
    Confined m.heap.mark { m with scopes := m.scopes.openCall } where
  hidden := hidden
  older := le_rfl
  names b bound := absurd bound (CallFrame.not_binds_empty b)
  cells := .now m.heap

end Machine

namespace JikiScript

variable {W : Type}

/-- Expressions leave names and cells as they are. -/
def evaluating (W : Type) : Invariant W where
  state m := m.scopes.access = .hidden
  change m m' := m.Untouched m'
  good _ _ := True
  refl := .refl
  trans := .trans
  grows changed := changed.grown
  quiet heap scopes hidden :=
    ⟨⟨scopes, heap ▸ le_rfl, heap ▸ .refl _ _⟩, scopes ▸ hidden⟩
  later _ _ := trivial
  plain _ := trivial
  names _ _ := trivial
  items _ _ _ _ := trivial
  entries _ _ _ _ := trivial
  newList {m xs} hidden _ :=
    ⟨⟨rfl, m.heap.mark_le_newList xs, m.heap.kept_newList xs⟩, hidden, trivial⟩
  newDict {m es} hidden _ :=
    ⟨⟨rfl, m.heap.mark_le_newDict es, m.heap.kept_newDict es⟩, hidden, trivial⟩

/-- Statements of a function leave everything that was there when it was called. -/
def confining (W : Type) (low : Heap.Mark) : StatementInvariant W where
  state m := m.Confined low
  change m m' := m.Framed low m'
  good t v := v.MadeIn low t
  refl := .refl low
  trans := .trans
  grows changed := changed.grown
  quiet {m m'} heap scopes confined := by
    refine ⟨⟨⟨m.scopes.current, ?_⟩, heap ▸ le_rfl, heap ▸ .refl _ _⟩, ?_⟩
    · rw [scopes, m.scopes.setCurrent_current]
    · obtain ⟨hidden, older, names, cells⟩ := confined
      rw [← heap] at older names cells
      rw [← scopes] at hidden names
      exact ⟨hidden, older, names, cells⟩
  later le made := made.widen le_rfl le
  plain plain := Value.madeIn_of_plain plain _ _
  names confined found := by
    obtain ⟨b, bound, rfl⟩ := Scopes.get_binds found
    exact confined.names b (Scopes.binds_of_hidden confined.hidden bound)
  items confined made := confined.cells.items _ made.1
  entries confined made := confined.cells.entries _ made.1
  newList {m xs} confined made := by
    obtain ⟨framed, confined'⟩ := confined.changeHeap (m.heap.mark_le_newList xs)
      ((m.heap.kept_newList xs).narrow confined.older) (confined.cells.newList made)
    exact ⟨framed, confined', m.heap.newList_madeIn confined.older xs⟩
  newDict {m es} confined made := by
    obtain ⟨framed, confined'⟩ := confined.changeHeap (m.heap.mark_le_newDict es)
      ((m.heap.kept_newDict es).narrow confined.older) (confined.cells.newDict made)
    exact ⟨framed, confined', m.heap.newDict_madeIn confined.older es⟩
  written confined write :=
    confined.changeHeap (Heap.mark_of_written write).ge (Heap.kept_of_written write)
      (confined.cells.written _ write)
  renamed {m scopes} confined names := by
    obtain ⟨frame, ⟨rfl, new⟩ | ⟨sees, -⟩⟩ := names.frame
    · refine confined.changeFrame fun b bound => ?_
      rcases new b bound with made | old
      · exact made
      · exact confined.names b old
    · rw [Scopes.seesGlobals_of_hidden confined.hidden] at sees
      cases sees

/-- A call that leaves names and cells as they are and gives back nothing that was there before. -/
def Isolating (call : Caller W) : Prop :=
  ∀ name args position m v m', m.scopes.access = .hidden →
    call name args position m = .ok v m' →
    m.Untouched m' ∧ v.MadeIn m.heap.mark m'.heap.mark ∧ m'.heap.Closed m.heap.mark

namespace Isolating

variable {call : Caller W}

theorem evaluating (isolating : Isolating call) : (evaluating W).discipline.Calls call := by
  intro t name args position _ m m' v _ hidden ended
  obtain ⟨untouched, -, -⟩ := isolating name args position m v m' hidden ended
  exact ⟨untouched, (congrArg Scopes.access untouched.scopes).trans hidden, trivial⟩

theorem confining (isolating : Isolating call) (low : Heap.Mark) :
    (confining W low).discipline.Calls call := by
  intro t name args position _ m m' v _ confined ended
  obtain ⟨untouched, fresh, closed⟩ := isolating name args position m v m' confined.hidden ended
  have cells := confined.cells.beside confined.older untouched.cells untouched.grown closed
  refine ⟨⟨⟨m.scopes.current, ?_⟩, untouched.grown, untouched.cells.narrow confined.older⟩, ?_, ?_⟩
  · rw [untouched.scopes, m.scopes.setCurrent_current]
  · refine ⟨?_, confined.older.trans untouched.grown, fun b bound => ?_, cells⟩
    · rw [untouched.scopes, confined.hidden]
    · rw [untouched.scopes] at bound
      exact (confined.names b bound).widen le_rfl untouched.grown
  · exact fresh.widen confined.older le_rfl

end Isolating

theorem thaw_isolated {m : Machine W} (hidden : m.scopes.access = .hidden) (s : Snapshot) :
    m.Untouched { m with heap := (m.heap.thaw s).2 } ∧
      (m.heap.thaw s).1.MadeIn m.heap.mark (m.heap.thaw s).2.mark ∧
      (m.heap.thaw s).2.Closed m.heap.mark := by
  -- thawing does not look at names, so it may as well happen in a call frame of its own
  have inside := (confining W m.heap.mark).discipline.thaw s False.elim
    { m with scopes := m.scopes.openCall } _ _ rfl (Machine.confined_openCall hidden) rfl
  obtain ⟨framed, confined, fresh⟩ := inside
  exact ⟨⟨rfl, framed.grown, framed.cells⟩, fresh, confined.cells⟩

theorem callHost_isolating : Isolating (W := W) Exec.callHost := by
  intro name args position m v m' hidden ended
  obtain ⟨failure, failed⟩ | ⟨f, -, failure, frozen, heap, failed⟩ |
    ⟨f, json, -, -, -, -, done⟩ := Exec.callHost_cases name args position m
  · cases failed.symm.trans ended
  · cases failed.symm.trans ended
  · cases done.symm.trans ended
    obtain ⟨untouched, fresh, closed⟩ := thaw_isolated hidden (Snapshot.ofJson json)
    exact ⟨⟨rfl, untouched.grown, untouched.cells⟩, fresh, closed⟩

theorem enter_isolating {call : Caller W} (isolating : Isolating call) (f : Function Stmt)
    (args : List Value) (position : Position) (m : Machine W) (v : Value) (m' : Machine W)
    (hidden : m.scopes.access = .hidden)
    (ended : Exec.enter pass (exec call) f args position m = .ok v m') :
    m.Untouched m' ∧ v.MadeIn m.heap.mark m'.heap.mark ∧ m'.heap.Closed m.heap.mark := by
  have inside := (confining W m.heap.mark).discipline.insideCall (t := m.heap.mark)
    (fun _ s => exec_holds _ (isolating.confining m.heap.mark) s) f args position
    fun a _ _ _ => pass_holds _ a
  obtain ⟨after, ran, rfl⟩ := Exec.enter_ok ended
  obtain ⟨framed, confined, fresh⟩ := inside { m with scopes := m.scopes.openCall } after v rfl
    (Machine.confined_openCall hidden) ran
  obtain ⟨frame, scopes⟩ := framed.scopes
  refine ⟨⟨?_, framed.grown, framed.cells⟩, fresh, confined.cells⟩
  change after.scopes.closeCall = m.scopes
  rw [scopes]
  rfl

theorem callFunction_isolating (functions : List (Function Stmt)) (room : Nat) :
    Isolating (W := W) (Exec.callFunction functions pass exec room) := by
  have resolved {run : Function Stmt → List Value → Position → Exec W Value}
      (runs : ∀ f, Isolating fun _ => run f) : Isolating (Exec.resolve functions run) := by
    intro name args position m v m' hidden ended
    unfold Exec.resolve at ended
    cases found : functions.find? fun f => f.name == name with
    | none =>
        rw [found] at ended
        exact callHost_isolating name args position m v m' hidden ended
    | some f =>
        rw [found] at ended
        dsimp only at ended
        by_cases wrong : args.length ≠ f.params.length
        · rw [if_pos wrong] at ended
          cases ended
        · rw [if_neg wrong] at ended
          exact runs f name args position m v m' hidden ended
  induction room with
  | zero =>
      refine resolved fun f name args position m v m' hidden ended => ?_
      cases ended
  | succ room ih => exact resolved fun f _ => enter_isolating ih f

/-- Evaluating an expression changes no name and no cell that was there, whatever functions it
calls and however deep they nest, and so no variable of any open call shows anything else than
before. The state that it leads to is one from which a run goes on. -/
theorem evaluation_is_isolated (functions : List (Function Stmt)) (room : Nat) (e : Expr)
    {m m' : Machine W} {v : Value} (reached : m.Reachable .hidden)
    (ended : eval (Exec.callFunction functions pass exec room) e m = .ok v m') :
    m'.scopes = m.scopes ∧
      (∀ cell < m.heap.lists.size, m'.heap.items cell = m.heap.items cell) ∧
      (∀ cell < m.heap.dicts.size, m'.heap.entries cell = m.heap.entries cell) ∧
      (∀ b, m.scopes.Binds b → ∀ depth,
        m'.heap.freezeTo depth b.value = m.heap.freezeTo depth b.value) ∧
      m'.Reachable .hidden := by
  have calls := (callFunction_isolating (W := W) functions room).evaluating
  obtain ⟨untouched, -, -⟩ := eval_holds _ calls e m m' v rfl reached.access_eq ended
  refine ⟨untouched.scopes, untouched.cells.items, untouched.cells.entries, fun b bound depth => ?_,
    eval_reachable functions room e reached ended⟩
  exact Heap.freezeTo_of_kept reached.live.cells untouched.cells depth (reached.live.names b bound)

def spoil : Function Stmt where
  name := "spoil"
  params := ["given"]
  body := [
    .changeElement (.index (.name "given" {}) (.literal (.text "inner") {}) {})
      (.literal (.text "a") {}) (.literal (.text "new") {}) {},
    .giveBack (some (.name "given" {})) {}]
  position := {}

def setBox : Stmt :=
  .set "box" (.dictionary [("inner", .dictionary [("a", .literal (.text "old") {})] {})] {}) {}

def spoilBox : Expr :=
  .call "spoil" [.name "box" {}] {}

theorem spoiling_leaves_the_box :
    ∃ c m v m', exec (caller [spoil]) setBox (Machine.initial {} "" .hidden [] 0 ()) = .ok c m ∧
      eval (caller [spoil]) spoilBox m = .ok v m' ∧
      m.Reachable .hidden ∧ m.scopes.get "box" = .ok (.dict 1) ∧
      m'.heap.display v ≠ m.heap.display (.dict 1) ∧
      ∀ b, m.scopes.Binds b → ∀ depth,
        m'.heap.freezeTo depth b.value = m.heap.freezeTo depth b.value := by
  have shown : (match exec (caller [spoil]) setBox (Machine.initial {} "" .hidden [] 0 ()) with
      | .ok _ m =>
        match eval (caller [spoil]) spoilBox m, m.scopes.get "box" with
        | .ok v m', .ok w => decide (w = .dict 1 ∧ m'.heap.display v ≠ m.heap.display (.dict 1))
        | _, _ => false
      | .error _ _ => false) = true := by
    decide +kernel
  split at shown
  · next c m first =>
      split at shown
      · next v m' w second box =>
          obtain ⟨rfl, changed⟩ := of_decide_eq_true shown
          have reached := exec_reachable [spoil] callLimit setBox (.start {} "" [] 0 ()) first
          have isolated := evaluation_is_isolated [spoil] callLimit spoilBox reached second
          exact ⟨c, m, v, m', first, second, reached, box, changed, isolated.2.2.2.1⟩
      · cases shown
  · cases shown

end JikiScript
end Walkthrough
