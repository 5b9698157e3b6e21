import Mathlib.Data.List.Nodup
import Walkthrough.Proofs.Operations
import Walkthrough.Proofs.Tables

/-! Keys of dictionaries. Entries are kept in plain lists, so that nothing but the operations on
them keeps a key from standing there twice. A value whose keys are distinct all the way down loses
nothing when it is written as JSON, whose objects have room for one entry of each key. -/

namespace Walkthrough

variable {α β : Type}

def KeysDistinct (es : List (String × α)) : Prop :=
  (es.map (·.1)).Nodup

instance (es : List (String × α)) : Decidable (KeysDistinct es) :=
  inferInstanceAs (Decidable (List.Nodup _))

namespace KeysDistinct

theorem nil : KeysDistinct ([] : List (String × α)) :=
  List.nodup_nil

theorem cons_iff {entry : String × α} {rest : List (String × α)} :
    KeysDistinct (entry :: rest) ↔ entry.1 ∉ rest.map (·.1) ∧ KeysDistinct rest :=
  List.nodup_cons

theorem perm {es fs : List (String × α)} (distinct : KeysDistinct es) (same : es.Perm fs) :
    KeysDistinct fs :=
  (same.map Prod.fst).nodup distinct

theorem of_keys {es : List (String × α)} {fs : List (String × β)} (distinct : KeysDistinct es)
    (same : fs.map (·.1) = es.map (·.1)) : KeysDistinct fs := by
  unfold KeysDistinct
  rw [same]
  exact distinct

theorem map_values {es : List (String × α)} (distinct : KeysDistinct es) (f : String × α → β) :
    KeysDistinct (es.map fun e => (e.1, f e)) :=
  distinct.of_keys (List.map_map ..)

theorem lookup_iff {es : List (String × α)} (distinct : KeysDistinct es) {key : String}
    {value : α} : es.lookup key = some value ↔ (key, value) ∈ es := by
  constructor
  · exact mem_of_lookup
  · exact lookup_of_mem (List.pairwise_map.mp distinct)

theorem putEntry {es : List (String × α)} (distinct : KeysDistinct es) (key : String) (value : α) :
    KeysDistinct (putEntry key value es) := by
  induction es with
  | nil => exact List.nodup_singleton key
  | cons entry rest ih =>
      obtain ⟨first, later⟩ := cons_iff.mp distinct
      unfold Walkthrough.putEntry
      split
      · next same => exact cons_iff.mpr ⟨same ▸ first, later⟩
      · next differs =>
          refine cons_iff.mpr ⟨fun taken => ?_, ih later⟩
          obtain ⟨e, member, same⟩ := List.mem_map.mp taken
          rcases mem_putEntry member with rfl | old
          · exact differs same.symm
          · exact first (List.mem_map.mpr ⟨e, old, same⟩)

end KeysDistinct

namespace Table

theorem insertEntry_perm {key : String} {es : List (String × α)} (fresh : key ∉ es.map (·.1))
    (value : α) : (insertEntry key value es).Perm ((key, value) :: es) := by
  induction es with
  | nil => exact .refl _
  | cons entry rest ih =>
      have differs : key ≠ entry.1 := fun same => fresh (List.mem_cons.mpr (Or.inl same))
      have later : key ∉ rest.map (·.1) := fun taken => fresh (List.mem_cons_of_mem _ taken)
      rw [insertEntry, if_neg differs]
      split
      · exact .refl _
      · exact ((ih later).cons entry).trans (.swap _ _ _)

theorem insertAll_perm {t : Table α} {es : List (String × α)}
    (distinct : KeysDistinct (es ++ t.entries)) :
    (es.foldl (fun t entry => t.insert entry.1 entry.2) t).entries.Perm (es ++ t.entries) := by
  induction es generalizing t with
  | nil => exact .refl _
  | cons entry rest ih =>
      have fresh : entry.1 ∉ (rest ++ t.entries).map (·.1) :=
        (KeysDistinct.cons_iff.mp distinct).1
      have absent : entry.1 ∉ t.entries.map (·.1) := by
        intro taken
        apply fresh
        rw [List.map_append]
        exact List.mem_append_right _ taken
      have moved : (rest ++ (t.insert entry.1 entry.2).entries).Perm
          (entry :: rest ++ t.entries) :=
        ((insertEntry_perm absent entry.2).append_left rest).trans List.perm_middle
      exact (ih (distinct.perm moved.symm)).trans moved

/-- Entries with distinct keys are all in the table that is made of them, and nothing else is. -/
theorem ofList_perm {es : List (String × α)} (distinct : KeysDistinct es) :
    (ofList es).entries.Perm es := by
  have all : KeysDistinct (es ++ (empty : Table α).entries) := (List.append_nil es).symm ▸ distinct
  exact (insertAll_perm all).trans (.of_eq (List.append_nil es))

end Table

/-- No object in the JSON has a key twice. -/
inductive Json.Distinct : Json → Prop
  | null : Distinct .null
  | bool (b : Bool) : Distinct (.bool b)
  | int (n : Int) : Distinct (.int n)
  | float (x : Float) : Distinct (.float x)
  | str (s : String) : Distinct (.str s)
  | arr {items : List Json} : (∀ j ∈ items, Distinct j) → Distinct (.arr items)
  | obj {entries : List (String × Json)} : KeysDistinct entries → (∀ e ∈ entries, Distinct e.2) →
      Distinct (.obj entries)

namespace Json

theorem distinct_arr_iff {items : List Json} : (arr items).Distinct ↔ ∀ j ∈ items, j.Distinct := by
  constructor
  · intro distinct
    cases distinct with
    | arr inner => exact inner
  · exact .arr

theorem distinct_obj_iff {entries : List (String × Json)} :
    (obj entries).Distinct ↔ KeysDistinct entries ∧ ∀ e ∈ entries, e.2.Distinct := by
  constructor
  · intro distinct
    cases distinct with
    | obj keys inner => exact ⟨keys, inner⟩
  · rintro ⟨keys, inner⟩
    exact .obj keys inner

end Json

def HostFunction.GivesDistinct {W : Type} (f : HostFunction W) : Prop :=
  ∀ args host json, (f.run args host).1 = .ok json → json.Distinct

namespace Snapshot

/-- No dictionary in the value has a key twice. -/
inductive Distinct : Snapshot → Prop
  | number (x : Float) : Distinct (.number x)
  | text (s : String) : Distinct (.text s)
  | boolean (b : Bool) : Distinct (.boolean b)
  | nothing : Distinct .nothing
  | list {items : List Snapshot} : (∀ s ∈ items, Distinct s) → Distinct (.list items)
  | dict {entries : List (String × Snapshot)} : KeysDistinct entries →
      (∀ e ∈ entries, Distinct e.2) → Distinct (.dict entries)

theorem distinct_list_iff {items : List Snapshot} :
    (list items).Distinct ↔ ∀ s ∈ items, s.Distinct := by
  constructor
  · intro distinct
    cases distinct with
    | list inner => exact inner
  · exact .list

theorem distinct_dict_iff {entries : List (String × Snapshot)} :
    (dict entries).Distinct ↔ KeysDistinct entries ∧ ∀ e ∈ entries, e.2.Distinct := by
  constructor
  · intro distinct
    cases distinct with
    | dict keys inner => exact ⟨keys, inner⟩
  · rintro ⟨keys, inner⟩
    exact .dict keys inner

theorem ofJsonItems_eq_map (items : List Json) : ofJsonItems items = items.map ofJson := by
  induction items with
  | nil => rfl
  | cons item rest ih => rw [ofJsonItems, ih, List.map_cons]

theorem ofJsonEntries_eq_map (entries : List (String × Json)) :
    ofJsonEntries entries = entries.map fun e => (e.1, ofJson e.2) := by
  induction entries with
  | nil => rfl
  | cons entry rest ih => rw [ofJsonEntries, ih, List.map_cons]

theorem toJsonItems_eq_map (items : List Snapshot) : toJsonItems items = items.map toJson := by
  induction items with
  | nil => rfl
  | cons item rest ih => rw [toJsonItems, ih, List.map_cons]

theorem toJsonEntries_eq_map (entries : List (String × Snapshot)) :
    toJsonEntries entries = entries.map fun e => (e.1, toJson e.2) := by
  induction entries with
  | nil => rfl
  | cons entry rest ih => rw [toJsonEntries, ih, List.map_cons]

theorem distinct_ofJson {json : Json} (distinct : json.Distinct) : (ofJson json).Distinct := by
  induction distinct with
  | null => exact .nothing
  | bool b => exact .boolean b
  | int n => exact .number _
  | float x => exact .number x
  | str s => exact .text s
  | arr _ ih =>
      rw [ofJson, ofJsonItems_eq_map]
      exact .list (List.forall_mem_map.mpr ih)
  | obj keys _ ih =>
      rw [ofJson, ofJsonEntries_eq_map]
      exact .dict (keys.map_values fun e => ofJson e.2) (List.forall_mem_map.mpr ih)

/-- The JSON tells the whole value: the items in their order, and of every dictionary every entry,
in whatever order. -/
inductive Told : Snapshot → Json → Prop
  | number (x : Float) : Told (.number x) (numberJson x)
  | text (s : String) : Told (.text s) (.str s)
  | boolean (b : Bool) : Told (.boolean b) (.bool b)
  | nothing : Told .nothing .null
  | list {items : List Snapshot} {told : Snapshot → Json} : (∀ s ∈ items, Told s (told s)) →
      Told (.list items) (.arr (items.map told))
  | dict {entries : List (String × Snapshot)} {told : Snapshot → Json}
      {written : List (String × Json)} : (∀ e ∈ entries, Told e.2 (told e.2)) →
      written.Perm (entries.map fun e => (e.1, told e.2)) → Told (.dict entries) (.obj written)

theorem Distinct.told {s : Snapshot} (distinct : s.Distinct) : s.Told s.toJson := by
  induction distinct with
  | number x => exact .number x
  | text s => exact .text s
  | boolean b => exact .boolean b
  | nothing => exact .nothing
  | list _ ih =>
      rw [toJson, toJsonItems_eq_map]
      exact .list ih
  | dict keys _ ih =>
      rw [toJson, toJsonEntries_eq_map]
      exact .dict ih (Table.ofList_perm (keys.map_values fun e => e.2.toJson))

end Snapshot

namespace Heap

def Distinct (h : Heap) : Prop :=
  ∀ cell, KeysDistinct (h.entries cell)

namespace Distinct

variable {h : Heap}

theorem empty : Distinct {} := by
  intro cell
  exact .nil

theorem freezeTo (distinct : h.Distinct) (depth : Nat) (v : Value) :
    (h.freezeTo depth v).Distinct := by
  induction depth generalizing v with
  | zero =>
      cases v with
      | number x => exact .number x
      | text s => exact .text s
      | boolean b => exact .boolean b
      | nothing => exact .nothing
      | list cell => exact .list nofun
      | dict cell => exact .dict .nil nofun
  | succ depth ih =>
      cases v with
      | number x => exact .number x
      | text s => exact .text s
      | boolean b => exact .boolean b
      | nothing => exact .nothing
      | list cell => exact .list (List.forall_mem_map.mpr fun x _ => ih x)
      | dict cell =>
          refine .dict ((distinct cell).map_values fun e => h.freezeTo depth e.2) ?_
          exact List.forall_mem_map.mpr fun e _ => ih e.2

theorem freeze (distinct : h.Distinct) (v : Value) : (h.freeze v).Distinct :=
  distinct.freezeTo h.size v

theorem newDict (distinct : h.Distinct) {es : List (String × Value)} (keys : KeysDistinct es) :
    (h.newDict es).2.Distinct := by
  intro cell
  rw [entries_newDict]
  split
  · exact keys
  · exact distinct cell

theorem setEntries (distinct : h.Distinct) {es : List (String × Value)} (keys : KeysDistinct es)
    (target : Nat) : (h.setEntries target es).Distinct := by
  intro cell
  rcases h.entries_setEntries target cell es with old | ⟨-, new⟩
  · rw [old]
    exact distinct cell
  · rw [new]
    exact keys

end Distinct
end Heap

def Step.snapshots : Step → List Snapshot
  | .log value => [value]
  | .declare _ value => [value]
  | .assign _ value => [value]
  | .changeElement _ index value => [index, value]
  | .call _ args result => result :: args
  | .giveBack value => value.toList
  | .visit _ value _ => [value]
  | .expression value => [value]
  | .condition _ _ => []
  | .iterate _ _ => []
  | .skippedLoop _ => []
  | .leaveLoop => []
  | .nextIteration => []
  | .failed _ => []

def Step.Distinct (step : Step) : Prop :=
  ∀ s ∈ step.snapshots, s.Distinct

theorem Step.Distinct.one {step : Step} {shown : Snapshot} (only : step.snapshots = [shown])
    (distinct : shown.Distinct) : step.Distinct := by
  intro s member
  rw [only] at member
  rw [List.mem_singleton.mp member]
  exact distinct

/-- The frozen values of a step that succeeded: its result, and what the step shows. A failure has
none. -/
def Ending.snapshots : Ending → List Snapshot
  | .success _ value step => value.toList ++ step.snapshots
  | .failure _ => []

def Ending.Distinct (ending : Ending) : Prop :=
  ∀ s ∈ ending.snapshots, s.Distinct

namespace Ending.Distinct

theorem success {kind : String} {value : Snapshot} {step : Step} (result : value.Distinct)
    (shown : step.Distinct) : (Ending.success kind (some value) step).Distinct :=
  List.forall_mem_cons.mpr ⟨result, shown⟩

theorem silent {kind : String} {step : Step} (shows : step.snapshots = []) :
    (Ending.success kind none step).Distinct := by
  intro s member
  change s ∈ step.snapshots at member
  rw [shows] at member
  cases member

end Ending.Distinct

def Frame.snapshots (frame : Frame) : List Snapshot :=
  frame.bindings.entries.map (·.2) ++ frame.ending.snapshots

def Frame.Distinct (frame : Frame) : Prop :=
  ∀ s ∈ frame.snapshots, s.Distinct

end Walkthrough
