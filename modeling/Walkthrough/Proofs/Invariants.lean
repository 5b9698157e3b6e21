import Walkthrough.Proofs.Cells

/-! Invariants of states. What is true of a state, and what may become of it, is said here without
evaluations: of new cells, of writes, of the names. Every invariant that these keep is a discipline
whose stages are the cells made so far, and so it is kept by every evaluation that gives a value. -/

namespace Walkthrough

/-- What one operation can do to the names, with good values only. -/
inductive Scopes.Renamed (good : Value → Prop) (s : Scopes) : Scopes → Prop
  | declare {name : String} {v : Value} {constant : Bool} {s' : Scopes} : good v →
      s.declare name v constant = .ok s' → Renamed good s s'
  | assign {name : String} {v : Value} {s' : Scopes} : good v → s.assign name v = .ok s' →
      Renamed good s s'
  | openBlock : Renamed good s s.openBlock
  | closeBlock : Renamed good s s.closeBlock

/-- Something that is true of the states of a run, with what may become of a state and the values
that may be used on the way. Expressions without stores keep it. -/
structure Invariant (W : Type) where
  state : Machine W → Prop
  change : Machine W → Machine W → Prop
  good : Heap.Mark → Value → Prop
  refl : ∀ m, change m m
  trans : ∀ {m m' m''}, change m m' → change m' m'' → change m m''
  grows : ∀ {m m'}, change m m' → m.heap.mark ≤ m'.heap.mark
  /-- Of a state only the cells and the names count. -/
  quiet : ∀ {m m'}, m'.heap = m.heap → m'.scopes = m.scopes → state m → change m m' ∧ state m'
  later : ∀ {t t' v}, t ≤ t' → good t v → good t' v
  plain : ∀ {t v}, v.isCollection = false → good t v
  names : ∀ {m name v}, state m → m.scopes.get name = .ok v → good m.heap.mark v
  items : ∀ {m cell}, state m → good m.heap.mark (.list cell) →
    ∀ x ∈ m.heap.items cell, good m.heap.mark x
  entries : ∀ {m cell}, state m → good m.heap.mark (.dict cell) →
    ∀ e ∈ m.heap.entries cell, good m.heap.mark e.2
  newList : ∀ {m xs}, state m → (∀ x ∈ xs, good m.heap.mark x) →
    let made := m.heap.newList xs
    change m { m with heap := made.2 } ∧ state { m with heap := made.2 } ∧ good made.2.mark made.1
  newDict : ∀ {m es}, state m → (∀ e ∈ es, good m.heap.mark e.2) →
    let made := m.heap.newDict es
    change m { m with heap := made.2 } ∧ state { m with heap := made.2 } ∧ good made.2.mark made.1

/-- Statements keep it, too. -/
structure StatementInvariant (W : Type) extends Invariant W where
  written : ∀ {m heap}, state m → m.heap.Written (good m.heap.mark) heap →
    change m { m with heap } ∧ state { m with heap }
  renamed : ∀ {m scopes}, state m → m.scopes.Renamed (good m.heap.mark) scopes →
    change m { m with scopes } ∧ state { m with scopes }

/-- And so do calls, taken apart. -/
structure CallInvariant (W : Type) extends StatementInvariant W where
  openCall : ∀ {m}, state m →
    change m { m with scopes := m.scopes.openCall } ∧ state { m with scopes := m.scopes.openCall }
  closeCall : ∀ {m}, state m →
    change m { m with scopes := m.scopes.closeCall } ∧ state { m with scopes := m.scopes.closeCall }

namespace Invariant

variable {W α β : Type} (V : Invariant W)

/-- From a state of the invariant with the cells `t`, an evaluation that gives a value ends in one,
and `Q` is true of the value there. -/
def Keeps (t : Heap.Mark) (x : Exec W α) (Q : Heap.Mark → α → Prop) : Prop :=
  ∀ m m' a, m.heap.mark = t → V.state m → x m = .ok a m' →
    V.change m m' ∧ V.state m' ∧ Q m'.heap.mark a

variable {V} {t : Heap.Mark} {Q : Heap.Mark → α → Prop} {R : Heap.Mark → β → Prop}

theorem Keeps.give {a : α} (h : Q t a) : V.Keeps t (pure a) Q := by
  intro m m' a' here holds ended
  cases ended
  exact ⟨V.refl m, holds, here ▸ h⟩

theorem Keeps.andThen {x : Exec W α} {k : α → Exec W β} (hx : V.Keeps t x Q)
    (hk : ∀ t' a, t ≤ t' → Q t' a → V.Keeps t' (k a) R) : V.Keeps t (x >>= k) R := by
  intro m m'' b here holds ended
  obtain ⟨a, m', first, second⟩ := Exec.bind_eq_ok.mp ended
  obtain ⟨before, holds', given⟩ := hx m m' a here holds first
  have grown : t ≤ m'.heap.mark := here ▸ V.grows before
  obtain ⟨after, holds'', given'⟩ := hk _ a grown given m' m'' b rfl holds' second
  exact ⟨V.trans before after, holds'', given'⟩

theorem Keeps.raise (fault : Fault) (position : Position) :
    V.Keeps t (Exec.raise fault position : Exec W α) Q := by
  intro m m' a _ _ ended
  cases ended

theorem Keeps.quiet {x : Exec W α}
    (h : ∀ m m' a, x m = .ok a m' → m'.heap = m.heap ∧ m'.scopes = m.scopes) :
    V.Keeps t x fun _ _ => True := by
  intro m m' a _ holds ended
  obtain ⟨heap, scopes⟩ := h m m' a ended
  obtain ⟨changed, holds'⟩ := V.quiet heap scopes holds
  exact ⟨changed, holds', trivial⟩

theorem Keeps.readHeap :
    V.Keeps t (Exec.heap : Exec W Heap) fun t h => ∃ m, V.state m ∧ m.heap = h ∧ h.mark = t := by
  intro m m' h here holds ended
  cases ended
  exact ⟨V.refl m, holds, m, holds, rfl, rfl⟩

theorem Keeps.consult {g : Features → Heap → Except Fault α} (position : Position)
    (given : ∀ f h a, (∃ m, V.state m ∧ m.heap = h ∧ h.mark = t) → g f h = .ok a → Q t a) :
    V.Keeps t (Exec.consult position g) Q := by
  intro m m' a here holds ended
  rw [Exec.consult_apply] at ended
  split at ended
  · next result =>
      cases ended
      exact ⟨V.refl m, holds, here ▸ given _ _ a ⟨m, holds, rfl, here⟩ result⟩
  · cases ended

theorem Keeps.readName (name : String) (position : Position) :
    V.Keeps t (Exec.readName name position) V.good := by
  intro m m' v _ holds ended
  rw [Exec.readName_apply] at ended
  split at ended
  · next found =>
      cases ended
      exact ⟨V.refl m, holds, V.names holds found⟩
  · cases ended

theorem Keeps.newList {xs : List Value} (good : ∀ x ∈ xs, V.good t x) :
    V.Keeps t (Exec.newList xs) V.good := by
  intro m m' v here holds ended
  cases ended
  exact V.newList holds (here ▸ good)

theorem Keeps.newDict {es : List (String × Value)} (good : ∀ e ∈ es, V.good t e.2) :
    V.Keeps t (Exec.newDict es) V.good := by
  intro m m' v here holds ended
  cases ended
  exact V.newDict holds (here ▸ good)

theorem Keeps.record (position : Position) (kind : String) (value : Option Snapshot)
    (step : Step) : V.Keeps t (Exec.record position kind value step) fun _ _ => True := by
  refine .quiet fun m m' a ended => ?_
  rw [Exec.record_apply] at ended
  split at ended
  · cases ended
  · cases ended
    exact ⟨rfl, rfl⟩

theorem Keeps.countIteration (position : Position) :
    V.Keeps t (Exec.countIteration position) fun _ _ => True := by
  refine .quiet fun m m' a ended => ?_
  rw [Exec.countIteration_apply] at ended
  split at ended
  · cases ended
  · cases ended
    exact ⟨rfl, rfl⟩

def discipline (V : Invariant W) : Discipline W where
  Stage := Heap.Mark
  holds := V.Keeps
  good := V.good
  sound t h := ∃ m, V.state m ∧ m.heap = h ∧ h.mark = t
  later := V.later
  give := .give
  andThen := .andThen
  raise := .raise
  readHeap := .readHeap
  consult position _ given := .consult position given
  readName := .readName
  newList := .newList
  newDict good _ := .newDict good
  plain := V.plain
  items := by
    rintro t h cell ⟨m, holds, rfl, rfl⟩ good
    exact V.items holds good
  entries := by
    rintro t h cell ⟨m, holds, rfl, rfl⟩ good
    exact V.entries holds good

end Invariant

namespace StatementInvariant

variable {W : Type} (V : StatementInvariant W) {t : Heap.Mark}

theorem keeps_rename {x : Exec W Unit} {position : Position} {g : Scopes → Except Fault Scopes}
    (h : ∀ m, x m = match g m.scopes with
      | .ok scopes => .ok () { m with scopes }
      | .error fault => .error ⟨fault, position⟩ m)
    (renamed : ∀ {s s' : Scopes}, g s = .ok s' → s.Renamed (V.good t) s') :
    V.Keeps t x fun _ _ => True := by
  intro m m' a here holds ended
  rw [h m] at ended
  split at ended
  · next result =>
      cases ended
      obtain ⟨changed, holds'⟩ := V.renamed holds (here ▸ renamed result)
      exact ⟨changed, holds', trivial⟩
  · cases ended

theorem keeps_rewrite {g : Heap → Except Fault Heap} (position : Position)
    (written : ∀ h h', (∃ m, V.state m ∧ m.heap = h ∧ h.mark = t) → g h = .ok h' →
      h.Written (V.good t) h') : V.Keeps t (Exec.rewrite position g) fun _ _ => True := by
  intro m m' a here holds ended
  rw [Exec.rewrite_apply] at ended
  split at ended
  · next result =>
      cases ended
      obtain ⟨changed, holds'⟩ :=
        V.written holds (here ▸ written _ _ ⟨m, holds, rfl, here⟩ result)
      exact ⟨changed, holds', trivial⟩
  · cases ended

theorem keeps_block {change : Scopes → Scopes}
    (renamed : ∀ s : Scopes, s.Renamed (V.good t) (change s)) :
    V.Keeps t (modify fun m => { m with scopes := change m.scopes }) fun _ _ => True := by
  intro m m' a here holds ended
  cases ended
  obtain ⟨changed, holds'⟩ := V.renamed holds (here ▸ renamed m.scopes)
  exact ⟨changed, holds', trivial⟩

def discipline (V : StatementInvariant W) : StatementDiscipline W where
  toDiscipline := V.toInvariant.discipline
  declare {_ v} name constant position good :=
    V.keeps_rename (g := (·.declare name v constant)) (Exec.declare_apply name v constant position)
      (.declare good)
  assign {_ v} name position good :=
    V.keeps_rename (g := (·.assign name v)) (Exec.assign_apply name v position) (.assign good)
  rewrite position written _ := V.keeps_rewrite position written
  openBlock := V.keeps_block fun _ => .openBlock
  closeBlock := V.keeps_block fun _ => .closeBlock
  inFunction := .quiet (x := Exec.inFunction) fun _ _ _ ended => by
    cases ended
    exact ⟨rfl, rfl⟩
  loopDepth := .quiet (x := Exec.loopDepth) fun _ _ _ ended => by
    cases ended
    exact ⟨rfl, rfl⟩
  setLoopDepth depth := .quiet (x := Exec.setLoopDepth depth) fun _ _ _ ended => by
    cases ended
    exact ⟨rfl, rfl⟩
  log output := .quiet (x := Exec.log output) fun _ _ _ ended => by
    cases ended
    exact ⟨rfl, rfl⟩
  record position kind value _ _ := .record position kind value _
  round position hb h :=
    V.toInvariant.discipline.countedRound (fun _ => V.keeps_block fun _ => .openBlock)
      (fun _ => V.keeps_block fun _ => .closeBlock) (fun _ => .countIteration) position
      (fun t le => (hb t le).holds fun _ position kind value step _ =>
        .record position kind value step) h
  loopWhile position ht hb hu := by
    have bound (t : Heap.Mark) : V.Keeps t Exec.iterationsLeft fun _ _ => True :=
      .quiet fun _ _ _ ended => by
        cases ended
        exact ⟨rfl, rfl⟩
    refine Invariant.Keeps.andThen (bound _) fun _ n _ _ => ?_
    exact V.toInvariant.discipline.loopWhileBounded (fun _ => .countIteration) position
      (fun t => (ht t).holds fun _ position kind value step _ => .record position kind value step)
      hb hu n

end StatementInvariant

namespace CallInvariant

variable {W : Type}

/-- The host gets frozen copies, and what it gives back is thawed. -/
theorem keeps_callHost (V : CallInvariant W) {t : Heap.Mark} (name : String) (args : List Value)
    (position : Position) : V.Keeps t (Exec.callHost name args position) V.good := by
  intro m m' v here holds ended
  obtain ⟨failure, failed⟩ | ⟨f, -, failure, frozen, heap, failed⟩ |
    ⟨f, json, -, -, -, -, done⟩ := Exec.callHost_cases name args position m
  · cases failed.symm.trans ended
  · cases failed.symm.trans ended
  · cases done.symm.trans ended
    let entered := m.afterCall f (args.map m.heap.freeze)
    have counted : V.change m entered ∧ V.state entered := V.quiet rfl rfl holds
    obtain ⟨thawed, holds', good⟩ := V.toInvariant.discipline.thaw (Snapshot.ofJson json)
      False.elim entered _ _ here counted.2 rfl
    exact ⟨V.trans counted.1 thawed, holds', good⟩

def discipline (V : CallInvariant W) : CallDiscipline W where
  toStatementDiscipline := V.toStatementInvariant.discipline
  openCall := by
    intro _ m m' a _ holds ended
    cases ended
    obtain ⟨changed, holds'⟩ := V.openCall holds
    exact ⟨changed, holds', trivial⟩
  closeCall := by
    intro _ m m' a _ holds ended
    cases ended
    obtain ⟨changed, holds'⟩ := V.closeCall holds
    exact ⟨changed, holds', trivial⟩
  readFunctions h _ := fun m => h m m
  callHost := V.keeps_callHost

end CallInvariant
end Walkthrough
