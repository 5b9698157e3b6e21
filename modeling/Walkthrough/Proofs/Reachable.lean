import Walkthrough.Proofs.Invariants
import Walkthrough.Proofs.Steps

/-! The states of runs. A run goes from state to state by the small operations, on values whose
cells are there; the reachable states are those that can be reached so. In each of them every name,
hidden ones included, is bound to a value whose cell is there, and the cells hold no others. -/

namespace Walkthrough

namespace CallFrame

/-- The frame binds a name so, or will again once a block is closed. -/
def Binds (frame : CallFrame) (b : Binding) : Prop :=
  (∃ name, (name, b) ∈ frame.locals.entries) ∨
    ∃ block ∈ frame.blocks, ∃ name, (name, b) ∈ block.shadowed

variable {frame : CallFrame} {b : Binding}

theorem not_binds_empty (b : Binding) : ¬ ({} : CallFrame).Binds b := by
  rintro (⟨name, member⟩ | ⟨block, member, -⟩)
  · cases member
  · cases member

theorem binds_of_get? {name : String} (found : frame.locals.get? name = some b) : frame.Binds b :=
  Or.inl ⟨name, mem_of_lookup found⟩

theorem binds_openBlock (h : frame.openBlock.Binds b) : frame.Binds b := by
  rcases h with bound | ⟨block, member, name, hidden⟩
  · exact Or.inl bound
  · rcases List.mem_cons.mp member with rfl | outer
    · cases hidden
    · exact Or.inr ⟨block, outer, name, hidden⟩

theorem binds_closeBlock (h : frame.closeBlock.Binds b) : frame.Binds b := by
  unfold closeBlock at h
  split at h
  · exact h
  · next block outer open_ =>
      rcases h with ⟨name, bound⟩ | ⟨other, member, name, hidden⟩
      · rcases Table.mem_insertAll bound with restored | left
        · exact Or.inr ⟨block, open_ ▸ List.mem_cons_self, name, restored⟩
        · exact Or.inl ⟨name, Table.mem_eraseAll left⟩
      · exact Or.inr ⟨other, open_ ▸ List.mem_cons_of_mem _ member, name, hidden⟩

theorem binds_write {name : String} {new : Binding}
    (h : ({ frame with locals := frame.locals.insert name new }).Binds b) :
    b = new ∨ frame.Binds b := by
  rcases h with ⟨other, bound⟩ | hidden
  · rcases Table.mem_insert bound with same | old
    · exact Or.inl (Prod.ext_iff.mp same).2
    · exact Or.inr (Or.inl ⟨other, old⟩)
  · exact Or.inr (Or.inr hidden)

theorem binds_bind {name : String} {new : Binding} (h : (frame.bind name new).Binds b) :
    b = new ∨ frame.Binds b := by
  unfold bind at h
  dsimp only at h
  split at h
  · exact binds_write h
  · next block outer open_ =>
      rcases h with ⟨other, bound⟩ | ⟨other, member, key, hidden⟩
      · exact binds_write (Or.inl ⟨other, bound⟩)
      · rcases List.mem_cons.mp member with rfl | member
        · -- the block that is open logs the binding it hides, if there is one
          rcases List.mem_append.mp hidden with logged | new
          · exact Or.inr (Or.inr ⟨block, open_ ▸ List.mem_cons_self, key, logged⟩)
          · obtain ⟨hid, found, same⟩ := List.mem_map.mp new
            cases same
            exact Or.inr (binds_of_get? (Option.mem_toList.mp found))
        · exact Or.inr (Or.inr ⟨other, open_ ▸ List.mem_cons_of_mem _ member, key, hidden⟩)

end CallFrame

namespace Scopes

/-- Some open call frame binds a name so, or will again once a block is closed. -/
def Binds (s : Scopes) (b : Binding) : Prop :=
  ∃ frame ∈ s.globals :: s.calls, frame.Binds b

variable {s s' : Scopes} {b : Binding}

theorem current_mem (s : Scopes) : s.current ∈ s.globals :: s.calls := by
  unfold current
  cases s.calls with
  | nil => exact List.mem_cons_self
  | cons frame outer => exact List.mem_cons_of_mem _ List.mem_cons_self

theorem binds_current (h : s.current.Binds b) : s.Binds b :=
  ⟨s.current, s.current_mem, h⟩

theorem binds_globals (h : s.globals.Binds b) : s.Binds b :=
  ⟨s.globals, List.mem_cons_self, h⟩

theorem binds_setCurrent {frame : CallFrame} (h : (s.setCurrent frame).Binds b) :
    frame.Binds b ∨ s.Binds b := by
  obtain ⟨other, member, bound⟩ := h
  unfold setCurrent at member
  split at member
  · next none =>
      rw [none] at member
      cases List.mem_singleton.mp member
      exact Or.inl bound
  · next inner outer inside =>
      rcases List.mem_cons.mp member with rfl | member
      · exact Or.inr (binds_globals bound)
      · rcases List.mem_cons.mp member with rfl | member
        · exact Or.inl bound
        · have held : other ∈ s.calls := inside ▸ List.mem_cons_of_mem _ member
          exact Or.inr ⟨other, List.mem_cons_of_mem _ held, bound⟩

theorem lookup?_binds {name : String} (found : s.lookup? name = some b) : s.Binds b := by
  unfold lookup? at found
  split at found
  · next own =>
      cases found
      exact binds_current (CallFrame.binds_of_get? own)
  · split at found
    · exact binds_globals (CallFrame.binds_of_get? found)
    · cases found

theorem seesGlobals_of_lookup? {name : String} (found : s.lookup? name = some b)
    (foreign : ¬ s.current.locals.contains name = true) : s.seesGlobals = true := by
  unfold lookup? at found
  split at found
  · next own => exact absurd (congrArg Option.isSome own) foreign
  · split at found
    · next sees => exact sees
    · cases found

theorem get_binds {name : String} {v : Value} (found : s.get name = .ok v) :
    ∃ b, s.lookup? name = some b ∧ b.value = v := by
  unfold get at found
  split at found
  · next b own =>
      cases found
      exact ⟨b, own, rfl⟩
  · cases found

/-- A change of names puts another frame in the place of the current one, or of the globals where a
function sees these; the new frame binds good values and what the old one bound. -/
theorem Renamed.frame {good : Value → Prop} (h : s.Renamed good s') :
    ∃ frame, s' = s.setCurrent frame ∧
        (∀ b, frame.Binds b → good b.value ∨ s.current.Binds b) ∨
      s.seesGlobals = true ∧ s' = { s with globals := frame } ∧
        ∀ b, frame.Binds b → good b.value ∨ s.globals.Binds b := by
  cases h with
  | @declare name v constant _ ok declared =>
      obtain ⟨-, -, rfl⟩ := declare_eq_ok.mp declared
      refine ⟨s.current.bind name ⟨v, constant⟩, Or.inl ⟨rfl, fun b bound => ?_⟩⟩
      rcases CallFrame.binds_bind bound with rfl | old
      · exact Or.inl ok
      · exact Or.inr old
  | @assign name v _ ok assigned =>
      obtain ⟨binding, found, -, rfl⟩ := assign_eq_ok.mp assigned
      have writes (frame : CallFrame) (b : Binding)
          (bound : CallFrame.Binds { frame with
            locals := frame.locals.insert name { binding with value := v } } b) :
          good b.value ∨ frame.Binds b := by
        rcases CallFrame.binds_write bound with rfl | old
        · exact Or.inl ok
        · exact Or.inr old
      by_cases own : s.current.locals.contains name = true
      · rw [if_pos own]
        exact ⟨_, Or.inl ⟨rfl, writes s.current⟩⟩
      · rw [if_neg own]
        exact ⟨_, Or.inr ⟨seesGlobals_of_lookup? found own, rfl, writes s.globals⟩⟩
  | openBlock =>
      exact ⟨_, Or.inl ⟨rfl, fun b bound => Or.inr (CallFrame.binds_openBlock bound)⟩⟩
  | closeBlock =>
      exact ⟨_, Or.inl ⟨rfl, fun b bound => Or.inr (CallFrame.binds_closeBlock bound)⟩⟩

theorem Renamed.binds {good : Value → Prop} (h : s.Renamed good s') (bound : s'.Binds b) :
    good b.value ∨ s.Binds b := by
  obtain ⟨frame, ⟨rfl, new⟩ | ⟨-, rfl, new⟩⟩ := h.frame
  · rcases binds_setCurrent bound with inFrame | old
    · exact (new b inFrame).imp_right binds_current
    · exact Or.inr old
  · obtain ⟨other, member, inOther⟩ := bound
    rcases List.mem_cons.mp member with rfl | member
    · exact (new b inOther).imp_right binds_globals
    · exact Or.inr ⟨other, List.mem_cons_of_mem _ member, inOther⟩

theorem setCurrent_access (s : Scopes) (frame : CallFrame) :
    (s.setCurrent frame).access = s.access := by
  unfold setCurrent
  split <;> rfl

theorem Renamed.access {good : Value → Prop} (h : s.Renamed good s') : s'.access = s.access := by
  obtain ⟨frame, ⟨rfl, -⟩ | ⟨-, rfl, -⟩⟩ := h.frame
  · exact setCurrent_access s frame
  · rfl

end Scopes

namespace Machine

variable {W : Type} {access : GlobalAccess} {m m' : Machine W}

/-- The value has no cell, or one that is there. -/
def Has (m : Machine W) (v : Value) : Prop :=
  v.MadeIn .zero m.heap.mark

/-- The states that a run may come to: each operation takes values that are there, and what it does
besides cells and names is left open. -/
inductive Reachable (access : GlobalAccess) : Machine W → Prop
  | start (features : Features) (source : String) (functions : List (HostFunction W))
      (seed : UInt64) (world : W) :
      Reachable access (.initial features source access functions seed world)
  | quiet {m m' : Machine W} : Reachable access m → m'.heap = m.heap → m'.scopes = m.scopes →
      Reachable access m'
  | newList {m : Machine W} {xs : List Value} : Reachable access m → (∀ x ∈ xs, m.Has x) →
      Reachable access { m with heap := (m.heap.newList xs).2 }
  | newDict {m : Machine W} {es : List (String × Value)} : Reachable access m →
      (∀ e ∈ es, m.Has e.2) → Reachable access { m with heap := (m.heap.newDict es).2 }
  | written {m : Machine W} {heap : Heap} : Reachable access m → m.heap.Written m.Has heap →
      Reachable access { m with heap }
  | renamed {m : Machine W} {scopes : Scopes} : Reachable access m →
      m.scopes.Renamed m.Has scopes → Reachable access { m with scopes }
  | openCall {m : Machine W} : Reachable access m →
      Reachable access { m with scopes := m.scopes.openCall }
  | closeCall {m : Machine W} : Reachable access m →
      Reachable access { m with scopes := m.scopes.closeCall }

/-- Whatever is bound or stored is there. -/
structure Live (m : Machine W) : Prop where
  names : ∀ b, m.scopes.Binds b → m.Has b.value
  cells : m.heap.Closed .zero

theorem Reachable.access_eq (reached : m.Reachable access) : m.scopes.access = access := by
  induction reached with
  | start => rfl
  | quiet _ _ scopes ih => rw [scopes, ih]
  | newList _ _ ih => exact ih
  | newDict _ _ ih => exact ih
  | written _ _ ih => exact ih
  | renamed _ names ih => exact names.access.trans ih
  | openCall _ ih => exact ih
  | closeCall _ ih => exact ih

theorem Reachable.live (reached : m.Reachable access) : m.Live := by
  induction reached with
  | start features source functions seed world =>
      refine ⟨fun b ⟨frame, member, bound⟩ => ?_, Heap.Closed.now Heap.empty⟩
      cases List.mem_singleton.mp member
      exact absurd bound (CallFrame.not_binds_empty b)
  | quiet _ heap scopes ih =>
      constructor
      · unfold Has
        rw [heap, scopes]
        exact ih.names
      · rw [heap]
        exact ih.cells
  | @newList m xs _ there ih =>
      refine ⟨fun b bound => ?_, ih.cells.newList there⟩
      exact (ih.names b bound).widen le_rfl (m.heap.mark_le_newList xs)
  | @newDict m es _ there ih =>
      refine ⟨fun b bound => ?_, ih.cells.newDict there⟩
      exact (ih.names b bound).widen le_rfl (m.heap.mark_le_newDict es)
  | written _ write ih =>
      refine ⟨fun b bound => ?_, ih.cells.written _ write⟩
      rw [Has, Heap.mark_of_written write]
      exact ih.names b bound
  | renamed _ names ih =>
      refine ⟨fun b bound => ?_, ih.cells⟩
      rcases names.binds bound with new | old
      · exact new
      · exact ih.names b old
  | openCall _ ih =>
      refine ⟨fun b ⟨frame, member, bound⟩ => ?_, ih.cells⟩
      rcases List.mem_cons.mp member with rfl | member
      · exact ih.names b (Scopes.binds_globals bound)
      · rcases List.mem_cons.mp member with rfl | member
        · exact absurd bound (CallFrame.not_binds_empty b)
        · exact ih.names b ⟨frame, List.mem_cons_of_mem _ member, bound⟩
  | closeCall _ ih =>
      refine ⟨fun b ⟨frame, member, bound⟩ => ?_, ih.cells⟩
      rcases List.mem_cons.mp member with rfl | member
      · exact ih.names b (Scopes.binds_globals bound)
      · exact ih.names b ⟨frame, List.mem_cons_of_mem _ (List.mem_of_mem_tail member), bound⟩

/-- To be reachable is an invariant: values that are there stay there, and names and cells hold no
others. -/
def reaching (W : Type) (access : GlobalAccess) : CallInvariant W where
  state := Reachable access
  change m m' := m.heap.mark ≤ m'.heap.mark
  good t v := v.MadeIn .zero t
  refl _ := le_rfl
  trans := le_trans
  grows := id
  quiet heap scopes reached := ⟨heap ▸ le_rfl, reached.quiet heap scopes⟩
  later le made := made.widen le_rfl le
  plain plain := Value.madeIn_of_plain plain _ _
  names reached found := by
    obtain ⟨b, bound, rfl⟩ := Scopes.get_binds found
    exact reached.live.names b (Scopes.lookup?_binds bound)
  items reached _ := reached.live.cells.items _ (Nat.zero_le _)
  entries reached _ := reached.live.cells.entries _ (Nat.zero_le _)
  newList {m xs} reached there :=
    ⟨m.heap.mark_le_newList xs, reached.newList there,
      m.heap.newList_madeIn (Heap.Mark.zero_le _) xs⟩
  newDict {m es} reached there :=
    ⟨m.heap.mark_le_newDict es, reached.newDict there,
      m.heap.newDict_madeIn (Heap.Mark.zero_le _) es⟩
  written reached write :=
    ⟨(Heap.mark_of_written write).symm ▸ le_rfl, reached.written write⟩
  renamed reached names := ⟨le_rfl, reached.renamed names⟩
  openCall reached := ⟨le_rfl, reached.openCall⟩
  closeCall reached := ⟨le_rfl, reached.closeCall⟩

end Machine

namespace JikiScript

variable {W : Type} {access : GlobalAccess} {m m' : Machine W} (functions : List (Function Stmt))
  (room : Nat)

theorem eval_reachable (e : Expr) {v : Value} (reached : m.Reachable access)
    (ended : eval (Exec.callFunction functions pass exec room) e m = .ok v m') :
    m'.Reachable access := by
  have calls := callFunction_holds (Machine.reaching W access).discipline functions room
  exact (eval_holds _ calls e m m' v rfl reached ended).2.1

theorem exec_reachable (s : Stmt) {c : Completion} (reached : m.Reachable access)
    (ended : exec (Exec.callFunction functions pass exec room) s m = .ok c m') :
    m'.Reachable access := by
  have calls := callFunction_holds (Machine.reaching W access).discipline functions room
  exact (exec_holds _ calls s m m' c rfl reached ended).2.1

end JikiScript
end Walkthrough
