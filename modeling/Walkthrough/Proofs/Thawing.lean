import Walkthrough.Proofs.Cells

/-! Thawing and freezing again. Thawing makes cells beside those that there are, the inner ones
first, and a cell that was made holds what it was made with for as long as nothing is written to it.
So a thawed value shows the snapshot that it was thawed from. -/

namespace Walkthrough.Heap

variable {h h' h'' : Heap} {p q : Heap → Nat → Prop}

theorem size_newList (h : Heap) (xs : List Value) : (h.newList xs).2.size = h.size + 1 := by
  unfold size newList
  rw [Array.size_push]
  exact Nat.add_right_comm h.lists.size 1 h.dicts.size

theorem size_newDict (h : Heap) (es : List (String × Value)) :
    (h.newDict es).2.size = h.size + 1 := by
  unfold size newDict
  rw [Array.size_push]
  rfl

/-- The cells are there as they were, and maybe others. -/
structure Extends (h h' : Heap) : Prop where
  grown : h.mark ≤ h'.mark
  kept : Kept h.mark h h'

namespace Extends

theorem refl (h : Heap) : Extends h h :=
  ⟨le_rfl, .refl h.mark h⟩

theorem trans (first : Extends h h') (second : Extends h' h'') : Extends h h'' :=
  ⟨first.grown.trans second.grown, first.kept.trans (second.kept.narrow first.grown)⟩

theorem newList (h : Heap) (xs : List Value) : Extends h (h.newList xs).2 :=
  ⟨h.mark_le_newList xs, h.kept_newList xs⟩

theorem newDict (h : Heap) (es : List (String × Value)) : Extends h (h.newDict es).2 :=
  ⟨h.mark_le_newDict es, h.kept_newDict es⟩

theorem size_le (extended : Extends h h') : h.size ≤ h'.size :=
  Nat.add_le_add extended.grown.1 extended.grown.2

end Extends

/-- Cells were made, and whatever is made after them, something holds of all depths that are at
least their number. -/
structure Since (h h' : Heap) (p : Heap → Nat → Prop) : Prop where
  extended : Extends h h'
  stays : ∀ {h'' depth}, Extends h' h'' → h'.size ≤ h.size + depth → p h'' depth

namespace Since

theorem nothing (always : ∀ h'' depth, p h'' depth) : Since h h p :=
  ⟨.refl h, fun _ _ => always _ _⟩

theorem both (first : Since h h' p) (second : Since h' h'' q) :
    Since h h'' fun later depth => p later depth ∧ q later depth := by
  have grown := first.extended.size_le
  have grown' := second.extended.size_le
  refine ⟨first.extended.trans second.extended, ?_⟩
  intro later depth extended deep
  constructor
  · exact first.stays (second.extended.trans extended) (by omega)
  · exact second.stays extended (by omega)

theorem imp (since : Since h h' p) (weaker : ∀ later depth, p later depth → q later depth) :
    Since h h' q :=
  ⟨since.extended, fun extended deep => weaker _ _ (since.stays extended deep)⟩

theorem newList {xs : List Value} {items : List Snapshot}
    (since : Since h h' fun later depth => xs.map (later.freezeTo depth) = items) :
    Since h (h'.newList xs).2 fun later depth =>
      later.freezeTo depth (h'.newList xs).1 = .list items := by
  refine ⟨since.extended.trans (.newList h' xs), ?_⟩
  intro later depth extended deep
  rw [size_newList] at deep
  have grown := since.extended.size_le
  -- the list is a cell more than its values made, so there is a level for it
  obtain ⟨depth, rfl⟩ : ∃ inner, depth = inner + 1 := ⟨depth - 1, by omega⟩
  have held : later.items h'.lists.size = xs := by
    rw [extended.kept.items _ (by rw [mark_newList]; exact Nat.lt_succ_self _), items_newList,
      if_pos rfl]
  change Snapshot.list ((later.items h'.lists.size).map (later.freezeTo depth)) = _
  rw [held, since.stays ((Extends.newList h' xs).trans extended) (by omega)]

theorem newDict {es : List (String × Value)} {entries : List (String × Snapshot)}
    (since : Since h h' fun later depth =>
      es.map (fun e => (e.1, later.freezeTo depth e.2)) = entries) :
    Since h (h'.newDict es).2 fun later depth =>
      later.freezeTo depth (h'.newDict es).1 = .dict entries := by
  refine ⟨since.extended.trans (.newDict h' es), ?_⟩
  intro later depth extended deep
  rw [size_newDict] at deep
  have grown := since.extended.size_le
  obtain ⟨depth, rfl⟩ : ∃ inner, depth = inner + 1 := ⟨depth - 1, by omega⟩
  have held : later.entries h'.dicts.size = es := by
    rw [extended.kept.entries _ (by rw [mark_newDict]; exact Nat.lt_succ_self _),
      entries_newDict, if_pos rfl]
  change Snapshot.dict ((later.entries h'.dicts.size).map
    fun e => (e.1, later.freezeTo depth e.2)) = _
  rw [held, since.stays ((Extends.newDict h' es).trans extended) (by omega)]

end Since

mutual

theorem since_thaw (h : Heap) : ∀ s : Snapshot, Since h (h.thaw s).2 fun later depth =>
    later.freezeTo depth (h.thaw s).1 = s
  | .number _ => .nothing fun _ depth => by cases depth <;> rfl
  | .text _ => .nothing fun _ depth => by cases depth <;> rfl
  | .boolean _ => .nothing fun _ depth => by cases depth <;> rfl
  | .nothing => .nothing fun _ depth => by cases depth <;> rfl
  | .list items => (since_thawItems h items).newList
  | .dict entries => (since_thawEntries h entries).newDict

theorem since_thawItems (h : Heap) : ∀ ss : List Snapshot, Since h (h.thawItems ss).2
    fun later depth => (h.thawItems ss).1.map (later.freezeTo depth) = ss
  | [] => .nothing fun _ _ => rfl
  | s :: rest => by
      refine ((since_thaw h s).both (since_thawItems (h.thaw s).2 rest)).imp ?_
      rintro later depth ⟨first, others⟩
      change later.freezeTo depth (h.thaw s).1 :: _ = s :: rest
      rw [first, others]

theorem since_thawEntries (h : Heap) : ∀ es : List (String × Snapshot),
    Since h (h.thawEntries es).2 fun later depth =>
      (h.thawEntries es).1.map (fun e => (e.1, later.freezeTo depth e.2)) = es
  | [] => .nothing fun _ _ => rfl
  | (key, s) :: rest => by
      refine ((since_thaw h s).both (since_thawEntries (h.thaw s).2 rest)).imp ?_
      rintro later depth ⟨first, others⟩
      change (key, later.freezeTo depth (h.thaw s).1) :: _ = (key, s) :: rest
      rw [first, others]

end

/-- A thawed value shows what it was thawed from. -/
theorem freeze_thaw (h : Heap) (s : Snapshot) : (h.thaw s).2.freeze (h.thaw s).1 = s :=
  (since_thaw h s).stays (.refl _) (Nat.le_add_left _ _)

end Walkthrough.Heap
