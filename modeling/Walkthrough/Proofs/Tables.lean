import Mathlib.Data.String.Basic
import Walkthrough.Table
import Walkthrough.Value.Heap

/-! What tables and lists of entries hold. Look-ups say everything about a table that is kept in
order: two of them with the same look-ups are equal. -/

namespace Walkthrough

variable {α β : Type}

theorem lookup_cons_eq_ite (key : String) (entry : String × α) (rest : List (String × α)) :
    (entry :: rest).lookup key = if key = entry.1 then some entry.2 else rest.lookup key := by
  rw [List.lookup_cons]
  by_cases same : key = entry.1
  · rw [if_pos same, beq_iff_eq.mpr same]
  · rw [if_neg same, beq_eq_false_iff_ne.mpr same]

theorem mem_of_lookup {key : String} {value : α} {es : List (String × α)}
    (found : es.lookup key = some value) : (key, value) ∈ es := by
  obtain ⟨before, after, rfl, -⟩ := List.lookup_eq_some_iff.mp found
  exact List.mem_append_right before List.mem_cons_self

theorem lookup_of_mem {key : String} {value : α} {es : List (String × α)}
    (distinct : es.Pairwise fun a b => a.1 ≠ b.1) (member : (key, value) ∈ es) :
    es.lookup key = some value := by
  induction es with
  | nil => cases member
  | cons entry rest ih =>
      obtain ⟨others, later⟩ := List.pairwise_cons.mp distinct
      rw [lookup_cons_eq_ite]
      rcases List.mem_cons.mp member with rfl | behind
      · exact if_pos rfl
      · rw [if_neg (Ne.symm (others _ behind)), ih later behind]

theorem mem_putEntry {key : String} {value : α} {es : List (String × α)} {e : String × α}
    (h : e ∈ putEntry key value es) : e = (key, value) ∨ e ∈ es := by
  induction es with
  | nil => exact Or.inl (List.mem_singleton.mp h)
  | cons entry rest ih =>
      unfold putEntry at h
      split at h
      · rcases List.mem_cons.mp h with new | old
        · exact Or.inl new
        · exact Or.inr (List.mem_cons_of_mem _ old)
      · rcases List.mem_cons.mp h with first | later
        · exact Or.inr (first ▸ List.mem_cons_self)
        · exact (ih later).imp_right (List.mem_cons_of_mem _)

namespace Table

def Sorted (t : Table α) : Prop :=
  t.entries.Pairwise fun a b => a.1 < b.1

theorem lookup_insertEntry (key other : String) (value : α) (es : List (String × α)) :
    (insertEntry key value es).lookup other =
      if other = key then some value else es.lookup other := by
  induction es with
  | nil => rw [insertEntry, lookup_cons_eq_ite]
  | cons entry rest ih =>
      unfold insertEntry
      split
      · rw [lookup_cons_eq_ite]
      · split
        · next equal => simp only [lookup_cons_eq_ite, ← equal]; split <;> rfl
        · next differs =>
            rw [lookup_cons_eq_ite, lookup_cons_eq_ite, ih]
            by_cases same : other = key
            · rw [if_pos same, if_pos same, if_neg (same ▸ differs)]
            · rw [if_neg same, if_neg same]

@[simp]
theorem get?_insert (t : Table α) (key other : String) (value : α) :
    (t.insert key value).get? other = if other = key then some value else t.get? other :=
  lookup_insertEntry key other value t.entries

theorem contains_insert (t : Table α) (key other : String) (value : α) :
    (t.insert key value).contains other = true ↔ other = key ∨ t.contains other = true := by
  unfold contains
  rw [get?_insert]
  by_cases same : other = key
  · simp only [same, if_true, Option.isSome_some, true_or]
  · simp only [same, if_false, false_or]

@[simp]
theorem get?_erase (t : Table α) (key other : String) :
    (t.erase key).get? other = if other = key then none else t.get? other := by
  unfold get? erase
  induction t.entries with
  | nil => exact (ite_self _).symm
  | cons entry rest ih =>
      by_cases dropped : entry.1 = key
      · rw [List.filter_cons_of_neg (by simpa using dropped), ih, lookup_cons_eq_ite, dropped]
        split <;> rfl
      · rw [List.filter_cons_of_pos (by simpa using dropped), lookup_cons_eq_ite, ih,
          lookup_cons_eq_ite]
        by_cases same : other = key
        · rw [if_pos same, if_pos same, if_neg (same ▸ Ne.symm dropped)]
        · rw [if_neg same, if_neg same]

theorem mem_insertEntry {key : String} {value : α} {es : List (String × α)} {e : String × α}
    (h : e ∈ insertEntry key value es) : e = (key, value) ∨ e ∈ es := by
  induction es with
  | nil => exact Or.inl (List.mem_singleton.mp h)
  | cons entry rest ih =>
      unfold insertEntry at h
      split at h
      · exact List.mem_cons.mp h
      · split at h
        · exact (List.mem_cons.mp h).imp_right (List.mem_cons_of_mem _)
        · rcases List.mem_cons.mp h with first | later
          · exact Or.inr (first ▸ List.mem_cons_self)
          · exact (ih later).imp_right (List.mem_cons_of_mem _)

theorem mem_insert {t : Table α} {key : String} {value : α} {e : String × α}
    (h : e ∈ (t.insert key value).entries) : e = (key, value) ∨ e ∈ t.entries :=
  mem_insertEntry h

theorem mem_insertAll {t : Table α} {es : List (String × α)} {e : String × α}
    (h : e ∈ (es.foldl (fun t entry => t.insert entry.1 entry.2) t).entries) :
    e ∈ es ∨ e ∈ t.entries := by
  induction es generalizing t with
  | nil => exact Or.inr h
  | cons entry rest ih =>
      rcases ih h with late | early
      · exact Or.inl (List.mem_cons_of_mem _ late)
      · rcases mem_insert early with rfl | old
        · exact Or.inl List.mem_cons_self
        · exact Or.inr old

theorem mem_eraseAll {t : Table α} {names : List String} {e : String × α}
    (h : e ∈ (names.foldl (fun t name => t.erase name) t).entries) : e ∈ t.entries := by
  induction names generalizing t with
  | nil => exact h
  | cons name rest ih => exact List.mem_of_mem_filter (ih h)

theorem sorted_empty : (empty : Table α).Sorted :=
  List.Pairwise.nil

theorem Sorted.insert {t : Table α} (h : t.Sorted) (key : String) (value : α) :
    (t.insert key value).Sorted := by
  obtain ⟨es⟩ := t
  unfold Sorted Table.insert at *
  induction es with
  | nil => exact List.pairwise_singleton _ _
  | cons entry rest ih =>
      obtain ⟨first, later⟩ := List.pairwise_cons.mp h
      unfold insertEntry
      split
      · next below =>
          refine List.pairwise_cons.mpr ⟨fun e member => ?_, h⟩
          rcases List.mem_cons.mp member with rfl | member
          · exact below
          · exact String.lt_trans below (first e member)
      · split
        · next equal =>
            exact List.pairwise_cons.mpr ⟨fun e member => equal ▸ first e member, later⟩
        · next notBelow differs =>
            refine List.pairwise_cons.mpr ⟨fun e member => ?_, ih later⟩
            rcases mem_insertEntry member with rfl | member
            · exact (lt_trichotomy key entry.1).resolve_left notBelow |>.resolve_left differs
            · exact first e member

theorem Sorted.erase {t : Table α} (h : t.Sorted) (key : String) : (t.erase key).Sorted :=
  List.Pairwise.filter _ h

theorem Sorted.insertAll {t : Table α} (h : t.Sorted) (es : List (String × α)) :
    (es.foldl (fun t entry => t.insert entry.1 entry.2) t).Sorted := by
  induction es generalizing t with
  | nil => exact h
  | cons entry rest ih => exact ih (h.insert entry.1 entry.2)

theorem Sorted.eraseAll {t : Table α} (h : t.Sorted) (names : List String) :
    (names.foldl (fun t name => t.erase name) t).Sorted := by
  induction names generalizing t with
  | nil => exact h
  | cons name rest ih => exact ih (h.erase name)

theorem get?_eraseAll (t : Table α) (names : List String) (key : String) :
    (names.foldl (fun t name => t.erase name) t).get? key =
      if key ∈ names then none else t.get? key := by
  induction names generalizing t with
  | nil => simp
  | cons name rest ih =>
      rw [List.foldl_cons, ih, get?_erase]
      by_cases same : key = name
      · rw [if_pos same, if_pos (List.mem_cons.mpr (Or.inl same)), ite_self]
      · simp only [List.mem_cons, same, false_or, if_false]

theorem get?_insertAll (t : Table α) (es : List (String × α))
    (distinct : es.Pairwise fun a b => a.1 ≠ b.1) (key : String) :
    (es.foldl (fun t entry => t.insert entry.1 entry.2) t).get? key =
      (es.lookup key).or (t.get? key) := by
  induction es generalizing t with
  | nil => rfl
  | cons entry rest ih =>
      obtain ⟨others, later⟩ := List.pairwise_cons.mp distinct
      rw [List.foldl_cons, ih _ later, get?_insert, lookup_cons_eq_ite]
      by_cases same : key = entry.1
      · have absent : rest.lookup key = none := by
          cases found : rest.lookup key with
          | none => rfl
          | some value => exact absurd same.symm (others _ (mem_of_lookup found))
        rw [absent, if_pos same, if_pos same]
        rfl
      · rw [if_neg same, if_neg same]

theorem Sorted.distinct {t : Table α} (h : t.Sorted) :
    t.entries.Pairwise fun a b => a.1 ≠ b.1 := by
  refine List.Pairwise.imp (fun {a b} below same => ?_) h
  exact String.lt_irrefl b.1 (same ▸ below)

theorem get?_overlay (base : Table α) {top : Table α} (h : top.Sorted) (key : String) :
    (base.overlay top).get? key = (top.get? key).or (base.get? key) :=
  get?_insertAll base top.entries h.distinct key

theorem lt_of_lookup_rest {entry : String × α} {rest : List (String × α)} {key : String}
    {value : α} (sorted : (entry :: rest).Pairwise fun a b => a.1 < b.1)
    (found : rest.lookup key = some value) : entry.1 < key :=
  (List.pairwise_cons.mp sorted).1 _ (mem_of_lookup found)

theorem entries_eq_of_lookup {xs ys : List (String × α)}
    (hx : xs.Pairwise fun a b => a.1 < b.1) (hy : ys.Pairwise fun a b => a.1 < b.1)
    (same : ∀ key, xs.lookup key = ys.lookup key) : xs = ys := by
  induction xs generalizing ys with
  | nil =>
      cases ys with
      | nil => rfl
      | cons y ys => simpa [lookup_cons_eq_ite] using same y.1
  | cons x xs ih =>
      cases ys with
      | nil => simpa [lookup_cons_eq_ite] using same x.1
      | cons y ys =>
          -- each first key is found on the other side, at or behind its first key
          have first : x.1 = y.1 := by
            have inY := same x.1
            have inX := same y.1
            rw [lookup_cons_eq_ite, lookup_cons_eq_ite, if_pos rfl] at inY inX
            by_contra differs
            rw [if_neg differs] at inY
            rw [if_neg (Ne.symm differs)] at inX
            exact String.lt_asymm (lt_of_lookup_rest hx inX) (lt_of_lookup_rest hy inY.symm)
          have head : x = y := by
            have values := same x.1
            rw [lookup_cons_eq_ite, lookup_cons_eq_ite, if_pos rfl, if_pos first] at values
            exact Prod.ext first (Option.some.inj values)
          subst head
          rw [ih (List.pairwise_cons.mp hx).2 (List.pairwise_cons.mp hy).2 fun key => ?_]
          by_cases atHead : key = x.1
          · have absent : ∀ {zs : List (String × α)},
                ((x :: zs).Pairwise fun a b => a.1 < b.1) → zs.lookup key = none := by
              intro zs sorted
              cases found : zs.lookup key with
              | none => rfl
              | some value =>
                  exact absurd (lt_of_lookup_rest sorted found) (atHead ▸ String.lt_irrefl _)
            rw [absent hx, absent hy]
          · simpa only [lookup_cons_eq_ite, if_neg atHead] using same key

/-- A table in order is what its look-ups say. -/
theorem Sorted.ext {t u : Table α} (ht : t.Sorted) (hu : u.Sorted)
    (same : ∀ key, t.get? key = u.get? key) : t = u := by
  cases t
  cases u
  exact congrArg Table.mk (entries_eq_of_lookup ht hu same)

end Table
end Walkthrough
