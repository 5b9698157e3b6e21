import Mathlib.Data.List.Nodup
import Mathlib.Logic.Relation
import Walkthrough.Value.Heap

/-! Freezing without a bound. A copy of a value is made by copying everything the value holds, and
that ends exactly as long as no collection contains itself. Counting the cells is then bound enough:
a chain of cells, each in the one before it, never comes to a cell twice. -/

namespace Walkthrough.Heap

/-- The first value is a collection that has the second in it. -/
inductive Holds (h : Heap) : Value → Value → Prop
  | item {cell : Nat} {x : Value} : x ∈ h.items cell → Holds h (.list cell) x
  | entry {cell : Nat} {e : String × Value} : e ∈ h.entries cell → Holds h (.dict cell) e.2

/-- The second value is the first, or is in it, in however many others it stands there. -/
def Reaches (h : Heap) : Value → Value → Prop :=
  Relation.ReflTransGen h.Holds

/-- No collection that the value reaches contains itself. -/
def AcyclicAt (h : Heap) (v : Value) : Prop :=
  ∀ w, h.Reaches v w → ¬ Relation.TransGen h.Holds w w

/-- No collection contains itself, in however many others it stands. -/
def Acyclic (h : Heap) : Prop :=
  ∀ v, ¬ Relation.TransGen h.Holds v v

/-- Copying a value and everything it holds ends with the snapshot. Nothing bounds the depth to
which it goes. -/
inductive Freezes (h : Heap) : Value → Snapshot → Prop
  | number (x : Float) : Freezes h (.number x) (.number x)
  | text (s : String) : Freezes h (.text s) (.text s)
  | boolean (b : Bool) : Freezes h (.boolean b) (.boolean b)
  | nothing : Freezes h .nothing .nothing
  | list {cell : Nat} {copy : Value → Snapshot} : (∀ x ∈ h.items cell, Freezes h x (copy x)) →
      Freezes h (.list cell) (.list ((h.items cell).map copy))
  | dict {cell : Nat} {copy : Value → Snapshot} :
      (∀ e ∈ h.entries cell, Freezes h e.2 (copy e.2)) →
      Freezes h (.dict cell) (.dict ((h.entries cell).map fun e => (e.1, copy e.2)))

variable {h : Heap}

def cells (h : Heap) : List Value :=
  (List.range h.lists.size).map .list ++ (List.range h.dicts.size).map .dict

theorem length_cells (h : Heap) : h.cells.length = h.size := by
  simp [cells, size]

theorem Holds.mem_cells {v w : Value} (holds : h.Holds v w) : v ∈ h.cells := by
  cases holds with
  | @item cell x member =>
      have made : cell < h.lists.size := by
        by_contra absent
        simp [items, Nat.not_lt.mp absent] at member
      simp [cells, made]
  | @entry cell e member =>
      have made : cell < h.dicts.size := by
        by_contra absent
        simp [entries, Nat.not_lt.mp absent] at member
      simp [cells, made]

theorem length_le_size {path : List Value} (distinct : path.Nodup)
    (made : ∀ v ∈ path, v ∈ h.cells) : path.length ≤ h.size := by
  rw [← h.length_cells]
  exact distinct.length_le_of_subset made

theorem Freezes.deeper {depth : Nat} {v : Value}
    (inner : ∀ w, h.Holds v w → h.Freezes w (h.freezeTo depth w)) :
    h.Freezes v (h.freezeTo (depth + 1) v) := by
  cases v with
  | number x => exact .number x
  | text s => exact .text s
  | boolean b => exact .boolean b
  | nothing => exact .nothing
  | list cell => exact .list fun x member => inner x (.item member)
  | dict cell => exact .dict fun e member => inner e.2 (.entry member)

theorem Freezes.ofEmpty {v : Value} (empty : ∀ w, ¬ h.Holds v w) (depth : Nat) :
    h.Freezes v (h.freezeTo depth v) := by
  have copied : h.Freezes v (h.freezeTo 1 v) := .deeper fun w holds => absurd holds (empty w)
  have same : h.freezeTo depth v = h.freezeTo 1 v := by
    cases v with
    | number _ | text _ | boolean _ | nothing => cases depth <;> rfl
    | list cell =>
        have none : h.items cell = [] :=
          List.eq_nil_iff_forall_not_mem.mpr fun x member => empty x (.item member)
        cases depth <;> simp [freezeTo, none]
    | dict cell =>
        have none : h.entries cell = [] :=
          List.eq_nil_iff_forall_not_mem.mpr fun e member => empty e.2 (.entry member)
        cases depth <;> simp [freezeTo, none]
  rw [same]
  exact copied

theorem AcyclicAt.held {v w : Value} (acyclic : h.AcyclicAt v) (holds : h.Holds v w) :
    h.AcyclicAt w :=
  fun u reached => acyclic u (.head holds reached)

theorem AcyclicAt.nodup_cons {path : List Value} {v : Value} (acyclic : h.AcyclicAt v)
    (distinct : path.Nodup) (leads : ∀ u ∈ path, Relation.TransGen h.Holds u v) :
    (v :: path).Nodup :=
  List.nodup_cons.mpr ⟨fun back => acyclic v .refl (leads v back), distinct⟩

/-- The cells on the way to a value and the depth that is left make up for all the cells. The way
has no cell twice, and so it cannot go on when the depth is used up. -/
theorem freezes_on_path {depth : Nat} {path : List Value} {v : Value} (acyclic : h.AcyclicAt v)
    (distinct : path.Nodup) (made : ∀ u ∈ path, u ∈ h.cells)
    (leads : ∀ u ∈ path, Relation.TransGen h.Holds u v) (enough : h.size ≤ depth + path.length) :
    h.Freezes v (h.freezeTo depth v) := by
  induction depth generalizing path v with
  | zero =>
      have longer := acyclic.nodup_cons distinct leads
      refine .ofEmpty (fun w holds => ?_) 0
      have short := length_le_size longer (List.forall_mem_cons.mpr ⟨holds.mem_cells, made⟩)
      rw [List.length_cons] at short
      omega
  | succ depth ih =>
      have longer := acyclic.nodup_cons distinct leads
      refine .deeper fun w holds => ih (acyclic.held holds) longer ?_ ?_ ?_
      · exact List.forall_mem_cons.mpr ⟨holds.mem_cells, made⟩
      · exact List.forall_mem_cons.mpr ⟨.single holds, fun u member => (leads u member).tail holds⟩
      · rw [List.length_cons]
        omega

theorem AcyclicAt.freezes {v : Value} (acyclic : h.AcyclicAt v) : h.Freezes v (h.freeze v) :=
  freezes_on_path acyclic List.nodup_nil nofun nofun (Nat.le_refl _)

theorem Freezes.not_cyclic {v : Value} {shown : Snapshot} (frozen : h.Freezes v shown) :
    ¬ Relation.TransGen h.Holds v v := by
  -- a way from the value to itself begins in something it holds, which then contains itself, too
  have turned {u : Value} (inner : ∀ w, h.Holds u w → ¬ Relation.TransGen h.Holds w w) :
      ¬ Relation.TransGen h.Holds u u := by
    intro cycle
    obtain ⟨w, holds, back⟩ := Relation.TransGen.head'_iff.mp cycle
    exact inner w holds (.tail' back holds)
  induction frozen with
  | number _ | text _ | boolean _ | nothing => exact turned nofun
  | list _ ih => exact turned fun | _, .item member => ih _ member
  | dict _ ih => exact turned fun | _, .entry member => ih _ member

/-- Exactly where no collection contains itself, copying ends for every value, and it ends with the
copy that is made within the bound. -/
theorem acyclic_iff_freezes : h.Acyclic ↔ ∀ v, h.Freezes v (h.freeze v) := by
  constructor
  · intro acyclic v
    exact AcyclicAt.freezes fun w _ => acyclic w
  · intro frozen v
    exact (frozen v).not_cyclic

end Walkthrough.Heap
