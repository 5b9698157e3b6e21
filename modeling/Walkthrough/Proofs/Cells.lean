import Walkthrough.Proofs.Discipline

/-! Old cells and new ones. Cells are numbered in the order in which they are made, so a mark taken
during a run tells the cells made before it from those made since. What a value shows depends only
on the cells it reaches: as long as these are as they were, it shows what it showed. -/

namespace Walkthrough

/-- How many cells of each kind there are at some time. -/
structure Heap.Mark where
  lists : Nat
  dicts : Nat

namespace Heap.Mark

def zero : Mark := ⟨0, 0⟩

instance : LE Mark :=
  ⟨fun early late => early.lists ≤ late.lists ∧ early.dicts ≤ late.dicts⟩

instance : Preorder Mark where
  le_refl _ := ⟨Nat.le_refl _, Nat.le_refl _⟩
  le_trans _ _ _ h h' := ⟨Nat.le_trans h.1 h'.1, Nat.le_trans h.2 h'.2⟩

theorem zero_le (mark : Mark) : zero ≤ mark :=
  ⟨Nat.zero_le _, Nat.zero_le _⟩

end Heap.Mark

namespace Value

/-- The cell of the value, if it has one, was made between the two marks. What is in the cell does
not count. -/
def MadeIn (low high : Heap.Mark) : Value → Prop
  | .list cell => low.lists ≤ cell ∧ cell < high.lists
  | .dict cell => low.dicts ≤ cell ∧ cell < high.dicts
  | _ => True

theorem madeIn_of_plain {v : Value} (plain : v.isCollection = false) (low high : Heap.Mark) :
    v.MadeIn low high := by
  cases v with
  | list _ | dict _ => cases plain
  | number _ | text _ | boolean _ | nothing => trivial

theorem MadeIn.widen {low low' high high' : Heap.Mark} {v : Value} (h : v.MadeIn low high)
    (earlier : low' ≤ low) (later : high ≤ high') : v.MadeIn low' high' := by
  cases v with
  | list cell => exact ⟨Nat.le_trans earlier.1 h.1, Nat.lt_of_lt_of_le h.2 later.1⟩
  | dict cell => exact ⟨Nat.le_trans earlier.2 h.1, Nat.lt_of_lt_of_le h.2 later.2⟩
  | number _ | text _ | boolean _ | nothing => trivial

end Value

namespace Heap

def mark (h : Heap) : Mark :=
  ⟨h.lists.size, h.dicts.size⟩

/-- Cells made since the mark hold nothing older than the mark and nothing that is not there. -/
structure Closed (low : Mark) (h : Heap) : Prop where
  items : ∀ cell, low.lists ≤ cell → ∀ x ∈ h.items cell, x.MadeIn low h.mark
  entries : ∀ cell, low.dicts ≤ cell → ∀ e ∈ h.entries cell, e.2.MadeIn low h.mark

/-- Cells made before the mark are as they were. -/
structure Kept (low : Mark) (h h' : Heap) : Prop where
  items : ∀ cell < low.lists, h'.items cell = h.items cell
  entries : ∀ cell < low.dicts, h'.entries cell = h.entries cell

namespace Kept

variable {low : Mark} {h h' h'' : Heap}

theorem refl (low : Mark) (h : Heap) : Kept low h h :=
  ⟨fun _ _ => rfl, fun _ _ => rfl⟩

theorem trans (first : Kept low h h') (second : Kept low h' h'') : Kept low h h'' where
  items cell below := (second.items cell below).trans (first.items cell below)
  entries cell below := (second.entries cell below).trans (first.entries cell below)

theorem narrow {low' : Mark} (kept : Kept low h h') (le : low' ≤ low) : Kept low' h h' where
  items cell below := kept.items cell (Nat.lt_of_lt_of_le below le.1)
  entries cell below := kept.entries cell (Nat.lt_of_lt_of_le below le.2)

end Kept

section Operations

variable (h : Heap)

theorem mark_newList (xs : List Value) :
    (h.newList xs).2.mark = ⟨h.lists.size + 1, h.dicts.size⟩ := by
  unfold mark newList
  rw [Array.size_push]

theorem mark_newDict (es : List (String × Value)) :
    (h.newDict es).2.mark = ⟨h.lists.size, h.dicts.size + 1⟩ := by
  unfold mark newDict
  rw [Array.size_push]

theorem mark_le_newList (xs : List Value) : h.mark ≤ (h.newList xs).2.mark := by
  rw [mark_newList]
  exact ⟨Nat.le_succ _, Nat.le_refl _⟩

theorem mark_le_newDict (es : List (String × Value)) : h.mark ≤ (h.newDict es).2.mark := by
  rw [mark_newDict]
  exact ⟨Nat.le_refl _, Nat.le_succ _⟩

theorem newList_madeIn {low : Mark} (le : low ≤ h.mark) (xs : List Value) :
    (h.newList xs).1.MadeIn low (h.newList xs).2.mark := by
  rw [mark_newList]
  exact ⟨le.1, Nat.lt_succ_self _⟩

theorem newDict_madeIn {low : Mark} (le : low ≤ h.mark) (es : List (String × Value)) :
    (h.newDict es).1.MadeIn low (h.newDict es).2.mark := by
  rw [mark_newDict]
  exact ⟨le.2, Nat.lt_succ_self _⟩

theorem kept_newList (xs : List Value) : Kept h.mark h (h.newList xs).2 where
  items cell below := by
    have old : cell ≠ h.lists.size := Nat.ne_of_lt below
    rw [items_newList, if_neg old]
  entries _ _ := rfl

theorem kept_newDict (es : List (String × Value)) : Kept h.mark h (h.newDict es).2 where
  items _ _ := rfl
  entries cell below := by
    have old : cell ≠ h.dicts.size := Nat.ne_of_lt below
    rw [entries_newDict, if_neg old]

theorem mark_of_written {good : Value → Prop} {h h' : Heap} (written : h.Written good h') :
    h'.mark = h.mark := by
  cases written with
  | items _ _ =>
      unfold mark setItems
      rw [Array.size_setIfInBounds]
  | entries _ _ =>
      unfold mark setEntries
      rw [Array.size_setIfInBounds]

theorem kept_of_written {low high : Mark} {h h' : Heap}
    (written : h.Written (Value.MadeIn low high) h') : Kept low h h' := by
  cases written with
  | @items target xs made _ =>
      refine ⟨fun cell below => ?_, fun _ _ => rfl⟩
      rcases h.items_setItems target cell xs with same | ⟨rfl, -⟩
      · exact same
      · exact absurd below (Nat.not_lt.mpr made.1)
  | @entries target es made _ =>
      refine ⟨fun _ _ => rfl, fun cell below => ?_⟩
      rcases h.entries_setEntries target cell es with same | ⟨rfl, -⟩
      · exact same
      · exact absurd below (Nat.not_lt.mpr made.1)

end Operations

namespace Closed

variable {low : Mark} {h h' : Heap}

theorem now (h : Heap) : h.Closed h.mark where
  items cell above x member := by
    have absent : h.items cell = [] := by
      unfold Heap.items
      rw [Array.getElem?_eq_none above, Option.getD_none]
    rw [absent] at member
    cases member
  entries cell above e member := by
    have absent : h.entries cell = [] := by
      unfold Heap.entries
      rw [Array.getElem?_eq_none above, Option.getD_none]
    rw [absent] at member
    cases member

theorem newList (closed : h.Closed low) {xs : List Value}
    (made : ∀ x ∈ xs, x.MadeIn low h.mark) : (h.newList xs).2.Closed low where
  items cell above x member := by
    have later := h.mark_le_newList xs
    rw [items_newList] at member
    split at member
    · exact (made x member).widen le_rfl later
    · exact (closed.items cell above x member).widen le_rfl later
  entries cell above e member :=
    (closed.entries cell above e member).widen le_rfl (h.mark_le_newList xs)

theorem newDict (closed : h.Closed low) {es : List (String × Value)}
    (made : ∀ e ∈ es, e.2.MadeIn low h.mark) : (h.newDict es).2.Closed low where
  items cell above x member :=
    (closed.items cell above x member).widen le_rfl (h.mark_le_newDict es)
  entries cell above e member := by
    have later := h.mark_le_newDict es
    rw [entries_newDict] at member
    split at member
    · exact (made e member).widen le_rfl later
    · exact (closed.entries cell above e member).widen le_rfl later

theorem written (closed : h.Closed low) (h' : Heap)
    (written : h.Written (Value.MadeIn low h.mark) h') : h'.Closed low := by
  have same := mark_of_written written
  cases written with
  | @items target xs _ made =>
      refine ⟨fun cell above x member => ?_, fun cell above e member => ?_⟩
      · rw [same]
        rcases h.items_setItems target cell xs with old | ⟨-, new⟩
        · exact closed.items cell above x (old ▸ member)
        · exact made x (new ▸ member)
      · rw [same]
        exact closed.entries cell above e member
  | @entries target es _ made =>
      refine ⟨fun cell above x member => ?_, fun cell above e member => ?_⟩
      · rw [same]
        exact closed.items cell above x member
      · rw [same]
        rcases h.entries_setEntries target cell es with old | ⟨-, new⟩
        · exact closed.entries cell above e (old ▸ member)
        · exact made e (new ▸ member)

theorem beside (closed : h.Closed low) (le : low ≤ h.mark) (kept : Kept h.mark h h')
    (grown : h.mark ≤ h'.mark) (new : h'.Closed h.mark) : h'.Closed low where
  items cell above x member := by
    by_cases old : cell < h.lists.size
    · rw [kept.items cell old] at member
      exact (closed.items cell above x member).widen le_rfl grown
    · exact (new.items cell (Nat.not_lt.mp old) x member).widen le le_rfl
  entries cell above e member := by
    by_cases old : cell < h.dicts.size
    · rw [kept.entries cell old] at member
      exact (closed.entries cell above e member).widen le_rfl grown
    · exact (new.entries cell (Nat.not_lt.mp old) e member).widen le le_rfl

end Closed

/-- A value shows what it showed, to any depth, when all the cells it can reach are kept. -/
theorem freezeTo_of_kept {low : Mark} {h h' : Heap} (closed : h.Closed low)
    (kept : Kept h.mark h h') (depth : Nat) {v : Value} (made : v.MadeIn low h.mark) :
    h'.freezeTo depth v = h.freezeTo depth v := by
  induction depth generalizing v with
  | zero => cases v <;> simp only [freezeTo]
  | succ depth ih =>
      cases v with
      | list cell =>
          rw [freezeTo, freezeTo, kept.items cell made.2]
          refine congrArg Snapshot.list (List.map_congr_left fun x member => ?_)
          exact ih (closed.items cell made.1 x member)
      | dict cell =>
          rw [freezeTo, freezeTo, kept.entries cell made.2]
          refine congrArg Snapshot.dict (List.map_congr_left fun e member => ?_)
          rw [ih (closed.entries cell made.1 e member)]
      | number _ | text _ | boolean _ | nothing => simp only [freezeTo]

end Heap
end Walkthrough
