import Walkthrough.Language
import Walkthrough.Proofs.Freezing
import Walkthrough.Proofs.Operations
import Walkthrough.Proofs.Permissive
import Walkthrough.Proofs.Tables

/-! Lists and dictionaries as maps. An index denotes a position of a list or a key of a dictionary.
What is read is what stands there, and a write puts a value there. What a failure tells depends on
two things besides: the text of the index, which is the key, and the length of a list. -/

namespace Walkthrough

/-- A position in a list, counted from 0, or a key of a dictionary. -/
inductive Slot where
  | position (i : Int)
  | key (text : String)
deriving DecidableEq

namespace Value

/-- The whole number that an index is. -/
def whole? : Value → Option Int
  | .number x =>
    if Number.isWhole x then some (Number.clampWord (Number.truncate x)) else none
  | _ => none

end Value

/-- The same fault, told of a collection of another length. -/
def Fault.atLength (length : Nat) : Fault → Fault
  | .indexOutsideOnRead index _ dataType => .indexOutsideOnRead index length dataType
  | fault => fault

namespace Heap

def length (h : Heap) : Value → Nat
  | .list cell => (h.items cell).length
  | .dict cell => (h.entries cell).length
  | _ => 0

/-- What stands in a collection at a slot. -/
def at? (h : Heap) : Value → Slot → Option Value
  | .list cell, .position i => JavaScript.itemAt? (h.items cell) i
  | .dict cell, .key text => (h.entries cell).lookup text
  | _, _ => none

@[simp]
theorem length_list (h : Heap) (cell : Nat) : h.length (.list cell) = (h.items cell).length :=
  rfl

@[simp]
theorem length_dict (h : Heap) (cell : Nat) : h.length (.dict cell) = (h.entries cell).length :=
  rfl

@[simp]
theorem at?_list (h : Heap) (cell : Nat) (i : Int) :
    h.at? (.list cell) (.position i) = JavaScript.itemAt? (h.items cell) i :=
  rfl

@[simp]
theorem at?_dict (h : Heap) (cell : Nat) (text : String) :
    h.at? (.dict cell) (.key text) = (h.entries cell).lookup text :=
  rfl

/-- The value is put in the slot of the collection: over the one that was there, or behind all
others. -/
inductive Puts (h : Heap) (v : Value) : Value → Slot → Heap → Prop
  | replaced {cell i : Nat} : i < (h.items cell).length →
      Puts h v (.list cell) (.position i) (h.setItems cell ((h.items cell).set i v))
  | added {cell : Nat} :
      Puts h v (.list cell) (.position (h.items cell).length)
        (h.setItems cell (h.items cell ++ [v]))
  | entered {cell : Nat} {text : String} :
      Puts h v (.dict cell) (.key text) (h.setEntries cell (putEntry text v (h.entries cell)))

end Heap

namespace Language

def readElement : Language → Heap → Value → Value → Except Fault Value
  | .jikiScript => JikiScript.readElement
  | .javaScript => JavaScript.readElement

def writeElement : Language → Heap → Value → Value → Value → Except Fault Heap
  | .jikiScript => JikiScript.writeElement
  | .javaScript => JavaScript.writeElement

def firstIndex : Language → Int
  | .jikiScript => 1
  | .javaScript => 0

/-- What an index denotes in a collection. The key that it is in a dictionary is its text. -/
def slot? (language : Language) (h : Heap) : Value → Value → Option Slot
  | .list _, k => k.whole?.map fun i => .position (i - language.firstIndex)
  | .dict _, k => some (.key (h.output k))
  | _, _ => none

end Language

section Keys

variable {α : Type}

theorem lookup_putEntry (key other : String) (value : α) (es : List (String × α)) :
    (putEntry key value es).lookup other = if other = key then some value else es.lookup other := by
  induction es with
  | nil => rw [putEntry, lookup_cons_eq_ite]
  | cons entry rest ih =>
      unfold putEntry
      split
      · next same =>
          rw [lookup_cons_eq_ite, lookup_cons_eq_ite, same]
          split <;> rfl
      · next differs =>
          rw [lookup_cons_eq_ite, lookup_cons_eq_ite, ih]
          by_cases first : other = entry.1
          · rw [if_pos first, if_pos first, if_neg (first ▸ differs)]
          · rw [if_neg first, if_neg first]

theorem length_putEntry (key : String) (value : α) (es : List (String × α)) :
    (putEntry key value es).length = es.length + if (es.lookup key).isSome then 0 else 1 := by
  induction es with
  | nil => rfl
  | cons entry rest ih =>
      unfold putEntry
      rw [lookup_cons_eq_ite]
      by_cases same : entry.1 = key
      · rw [if_pos same, if_pos same.symm]
        rfl
      · rw [if_neg same, if_neg (Ne.symm same), List.length_cons, List.length_cons, ih]
        omega

end Keys

section Positions

variable {h : Heap} {k : Value}

theorem display_number (h : Heap) (x : Float) :
    h.display (.number x) = (Snapshot.number x).display := by
  unfold Heap.display Heap.freeze
  cases h.size <;> rfl

theorem output_text (h : Heap) (s : String) : h.output (.text s) = s := by
  unfold Heap.output Heap.freeze
  cases h.size <;> rfl

theorem javaScript_position_eq_ok {i : Int} :
    JavaScript.position h k = .ok i ↔ k.whole? = some i := by
  cases k with
  | number x =>
      unfold JavaScript.position Value.whole?
      dsimp only
      split
      · exact ⟨fun same => congrArg some (Except.ok.inj same),
          fun same => congrArg Except.ok (Option.some.inj same)⟩
      · exact ⟨nofun, nofun⟩
  | _ => exact ⟨nofun, nofun⟩

theorem position_heap (h h' : Heap) (k : Value) :
    JavaScript.position h' k = JavaScript.position h k := by
  cases k with
  | number x =>
      unfold JavaScript.position
      rw [display_number, display_number]
  | _ => rfl

theorem offset_eq_ok {length i : Nat} {outside : Int → Nat → Fault} :
    JikiScript.offset h k length outside = .ok i ↔
      k.whole? = some ((i : Int) + 1) ∧ i < length := by
  cases k with
  | number x =>
      unfold JikiScript.offset Value.whole?
      dsimp only
      cases Number.isWhole x with
      | false => exact ⟨nofun, nofun⟩
      | true =>
          generalize Number.clampWord (Number.truncate x) = n
          simp only [Bool.not_true, Bool.false_eq_true, if_false, if_true, Option.some.injEq]
          split
          · exact ⟨nofun, fun ⟨same, _⟩ => by omega⟩
          · split
            · next away =>
                rw [Bool.or_eq_true, decide_eq_true_iff, decide_eq_true_iff] at away
                exact ⟨nofun, fun ⟨same, _⟩ => by omega⟩
            · next inside =>
                rw [Bool.or_eq_true, decide_eq_true_iff, decide_eq_true_iff] at inside
                rw [Except.ok.injEq]
                omega
  | _ => exact ⟨nofun, nofun⟩

theorem atLength_of_offset {h' : Heap} {length length' : Nat} {fault fault' : Fault}
    (failed : JikiScript.offset h k length (.indexOutsideOnRead · · "list") = .error fault)
    (failed' : JikiScript.offset h' k length' (.indexOutsideOnRead · · "list") = .error fault') :
    fault' = fault.atLength length' := by
  cases k with
  | number x =>
      unfold JikiScript.offset at failed failed'
      rw [display_number] at failed failed'
      dsimp only at failed failed'
      split at failed
      · next broken =>
          rw [if_pos broken] at failed'
          cases failed
          cases failed'
          rfl
      · next whole =>
          rw [if_neg whole] at failed'
          split at failed
          · next zero =>
              rw [if_pos zero] at failed'
              cases failed
              cases failed'
              rfl
          · next counted =>
              rw [if_neg counted] at failed'
              split at failed
              · split at failed'
                · cases failed
                  cases failed'
                  rfl
                · cases failed'
              · cases failed
  | _ =>
      cases failed
      cases failed'
      rfl

theorem atLength_of_position {fault : Fault} (failed : JavaScript.position h k = .error fault)
    (length : Nat) : fault.atLength length = fault := by
  unfold JavaScript.position at failed
  split at failed
  · split at failed
    · cases failed
    · cases failed
      rfl
  · cases failed
    rfl

theorem itemAt?_natCast {α : Type} (items : List α) (n : Nat) :
    JavaScript.itemAt? items n = items[n]? :=
  if_neg (Int.not_lt.mpr (Int.natCast_nonneg n))

theorem itemAt?_eq_some {α : Type} {items : List α} {i : Int} {x : α} :
    JavaScript.itemAt? items i = some x ↔ ∃ n : Nat, i = n ∧ items[n]? = some x := by
  unfold JavaScript.itemAt?
  split
  · exact ⟨nofun, fun ⟨n, same, _⟩ => by omega⟩
  · constructor
    · exact fun found => ⟨i.toNat, by omega, found⟩
    · rintro ⟨n, rfl, found⟩
      exact found

end Positions

namespace Heap

variable {h h' : Heap} {v c : Value} {slot : Slot}

theorem list_mem_cells {cell : Nat} : .list cell ∈ h.cells ↔ cell < h.lists.size := by
  simp [cells]

theorem dict_mem_cells {cell : Nat} : .dict cell ∈ h.cells ↔ cell < h.dicts.size := by
  simp [cells]

theorem items_setItems_self {cell : Nat} (made : cell < h.lists.size) (xs : List Value) :
    (h.setItems cell xs).items cell = xs := by
  unfold items setItems
  rw [Array.getElem?_setIfInBounds_self, if_pos made, Option.getD_some]

theorem entries_setEntries_self {cell : Nat} (made : cell < h.dicts.size)
    (es : List (String × Value)) : (h.setEntries cell es).entries cell = es := by
  unfold entries setEntries
  rw [Array.getElem?_setIfInBounds_self, if_pos made, Option.getD_some]

theorem getElem?_concat_ne {α : Type} {items : List α} {x : α} {n : Nat}
    (other : n ≠ items.length) : (items ++ [x])[n]? = items[n]? := by
  rcases Nat.lt_or_gt_of_ne other with inside | outside
  · exact List.getElem?_append_left inside
  · rw [List.getElem?_eq_none (Nat.le_of_lt outside), List.getElem?_eq_none]
    rw [List.length_append]
    exact outside

/-- Two heaps differ in what is in one collection at most. -/
structure DifferAt (h : Heap) (c : Value) (h' : Heap) : Prop where
  items : ∀ cell, .list cell ≠ c → h'.items cell = h.items cell
  entries : ∀ cell, .dict cell ≠ c → h'.entries cell = h.entries cell

namespace Puts

theorem at?_eq (made : c ∈ h.cells) (puts : h.Puts v c slot h') (other : Slot) :
    h'.at? c other = if other = slot then some v else h.at? c other := by
  cases puts with
  | @replaced cell i below =>
      cases other with
      | key text => rfl
      | position j =>
          rw [at?_list, at?_list, items_setItems_self (list_mem_cells.mp made)]
          by_cases same : j = i
          · subst same
            rw [if_pos rfl]
            exact itemAt?_eq_some.mpr ⟨i, rfl, List.getElem?_set_self below⟩
          · rw [if_neg fun slots => same (Slot.position.inj slots)]
            unfold JavaScript.itemAt?
            split
            · rfl
            · exact List.getElem?_set_ne (by omega)
  | @added cell =>
      cases other with
      | key text => rfl
      | position j =>
          rw [at?_list, at?_list, items_setItems_self (list_mem_cells.mp made)]
          by_cases same : j = (h.items cell).length
          · subst same
            rw [if_pos rfl]
            exact itemAt?_eq_some.mpr ⟨_, rfl, List.getElem?_concat_length⟩
          · rw [if_neg fun slots => same (Slot.position.inj slots)]
            unfold JavaScript.itemAt?
            split
            · rfl
            · exact getElem?_concat_ne (by omega)
  | @entered cell text =>
      cases other with
      | position i => rfl
      | key asked =>
          rw [at?_dict, at?_dict, entries_setEntries_self (dict_mem_cells.mp made),
            lookup_putEntry]
          by_cases same : asked = text
          · rw [if_pos same, if_pos (congrArg Slot.key same)]
          · rw [if_neg same, if_neg fun keys => same (Slot.key.inj keys)]

theorem length_eq (made : c ∈ h.cells) (puts : h.Puts v c slot h') :
    h'.length c = h.length c + if (h.at? c slot).isSome then 0 else 1 := by
  cases puts with
  | @replaced cell i below =>
      have there : h.at? (.list cell) (.position i) = some (h.items cell)[i] :=
        itemAt?_eq_some.mpr ⟨i, rfl, List.getElem?_eq_getElem below⟩
      rw [there, length_list, length_list, items_setItems_self (list_mem_cells.mp made),
        List.length_set]
      rfl
  | @added cell =>
      have absent : h.at? (.list cell) (.position (h.items cell).length) = none := by
        rw [at?_list, itemAt?_natCast, List.getElem?_eq_none (Nat.le_refl _)]
      rw [absent, length_list, length_list, items_setItems_self (list_mem_cells.mp made),
        List.length_append]
      rfl
  | @entered cell text =>
      rw [length_dict, length_dict, at?_dict,
        entries_setEntries_self (dict_mem_cells.mp made), length_putEntry]

theorem cells_eq (puts : h.Puts v c slot h') : h'.cells = h.cells := by
  cases puts with
  | replaced | added =>
      unfold cells setItems
      rw [Array.size_setIfInBounds]
  | entered =>
      unfold cells setEntries
      rw [Array.size_setIfInBounds]

theorem size_eq (puts : h.Puts v c slot h') : h'.size = h.size := by
  rw [← length_cells, ← length_cells, puts.cells_eq]

theorem differAt (puts : h.Puts v c slot h') : h.DifferAt c h' := by
  cases puts with
  | @replaced target | @added target =>
      refine ⟨fun cell other => ?_, fun _ _ => rfl⟩
      rcases h.items_setItems target cell _ with same | ⟨rfl, -⟩
      · exact same
      · exact absurd rfl other
  | @entered target =>
      refine ⟨fun _ _ => rfl, fun cell other => ?_⟩
      rcases h.entries_setEntries target cell _ with same | ⟨rfl, -⟩
      · exact same
      · exact absurd rfl other

end Puts

/-- What does not contain the collection shows what it showed. -/
theorem freezeTo_of_differAt (differ : h.DifferAt c h') (depth : Nat)
    (apart : ¬ Relation.ReflTransGen h.Holds v c) : h'.freezeTo depth v = h.freezeTo depth v := by
  induction depth generalizing v with
  | zero => cases v <;> simp only [freezeTo]
  | succ depth ih =>
      have other : v ≠ c := fun same => apart (same ▸ .refl)
      have inside {w : Value} (holds : h.Holds v w) : ¬ Relation.ReflTransGen h.Holds w c :=
        fun leads => apart (.head holds leads)
      cases v with
      | list cell =>
          rw [freezeTo, freezeTo, differ.items cell other]
          exact congrArg Snapshot.list
            (List.map_congr_left fun x member => ih (inside (.item member)))
      | dict cell =>
          rw [freezeTo, freezeTo, differ.entries cell other]
          refine congrArg Snapshot.dict (List.map_congr_left fun e member => ?_)
          rw [ih (inside (.entry member))]
      | number _ | text _ | boolean _ | nothing => simp only [freezeTo]

end Heap

section Reading

variable {h : Heap} {k x : Value} {cell : Nat}

theorem readKey_eq_ok {text : String} {fault : Fault} :
    (match (h.entries cell).lookup text with
      | some value => .ok value
      | none => .error fault : Except Fault Value) = .ok x ↔
      (h.entries cell).lookup text = some x := by
  cases (h.entries cell).lookup text with
  | some value => exact ⟨fun same => congrArg some (Except.ok.inj same),
      fun same => congrArg Except.ok (Option.some.inj same)⟩
  | none => exact ⟨nofun, nofun⟩

theorem fault_of_readKey {text : String} {told fault : Fault}
    (failed : (match (h.entries cell).lookup text with
      | some value => .ok value
      | none => .error told : Except Fault Value) = .error fault) : told = fault := by
  split at failed
  · cases failed
  · exact Except.error.inj failed

theorem error_of_bind_ok {α β : Type} {e : Except Fault α} {f : α → β} {fault : Fault}
    (failed : (e >>= fun a => .ok (f a)) = .error fault) : e = .error fault := by
  cases e with
  | error told => exact congrArg Except.error (Except.error.inj failed)
  | ok a => cases failed

/-- A list is not read where the index is no position, or where nothing stands there. -/
theorem fault_of_javaScript_readElement {fault : Fault}
    (failed : JavaScript.readElement h (.list cell) k = .error fault) :
    JavaScript.position h k = .error fault ∨ ∃ i, JavaScript.position h k = .ok i ∧
      fault = .indexOutsideOnRead i (h.items cell).length "list" := by
  change (JavaScript.position h k >>= fun i =>
    match JavaScript.itemAt? (h.items cell) i with
    | some item => .ok item
    | none => .error (.indexOutsideOnRead i (h.items cell).length "list")) = _ at failed
  cases found : JavaScript.position h k with
  | error told =>
      rw [found] at failed
      exact Or.inl (congrArg Except.error (Except.error.inj failed))
  | ok i =>
      rw [found] at failed
      change (match JavaScript.itemAt? (h.items cell) i with
        | some item => .ok item
        | none => .error _ : Except Fault Value) = _ at failed
      split at failed
      · cases failed
      · exact Or.inr ⟨i, rfl, (Except.error.inj failed).symm⟩

theorem jikiScript_readElement_list :
    JikiScript.readElement h (.list cell) k = .ok x ↔
      ∃ i : Nat, k.whole? = some ((i : Int) + 1) ∧ (h.items cell)[i]? = some x := by
  change (JikiScript.offset h k _ _ >>= fun i =>
    .ok ((h.items cell)[i]?.getD .nothing)) = _ ↔ _
  constructor
  · intro read
    obtain ⟨i, found, same⟩ := exists_of_bind_ok read
    obtain ⟨whole, below⟩ := offset_eq_ok.mp found
    rw [List.getElem?_eq_getElem below] at same
    cases same
    exact ⟨i, whole, List.getElem?_eq_getElem below⟩
  · rintro ⟨i, whole, stands⟩
    have below := (List.getElem?_eq_some_iff.mp stands).1
    rw [offset_eq_ok.mpr ⟨whole, below⟩]
    change Except.ok _ = _
    rw [stands]
    rfl

theorem javaScript_readElement_list :
    JavaScript.readElement h (.list cell) k = .ok x ↔
      ∃ i, k.whole? = some i ∧ JavaScript.itemAt? (h.items cell) i = some x := by
  change (JavaScript.position h k >>= fun i =>
    match JavaScript.itemAt? (h.items cell) i with
    | some item => .ok item
    | none => .error (.indexOutsideOnRead i (h.items cell).length "list")) = _ ↔ _
  constructor
  · intro read
    obtain ⟨i, found, same⟩ := exists_of_bind_ok read
    refine ⟨i, javaScript_position_eq_ok.mp found, ?_⟩
    split at same
    · next stands =>
        cases same
        exact stands
    · cases same
  · rintro ⟨i, whole, stands⟩
    rw [javaScript_position_eq_ok.mpr whole]
    change (match JavaScript.itemAt? (h.items cell) i with
      | some item => .ok item
      | none => .error _ : Except Fault Value) = _
    rw [stands]

theorem jikiScript_writeElement_list {h' : Heap} {v : Value} :
    JikiScript.writeElement h (.list cell) k v = .ok h' ↔
      ∃ i : Nat, k.whole? = some ((i : Int) + 1) ∧ i < (h.items cell).length ∧
        h' = h.setItems cell ((h.items cell).set i v) := by
  change (JikiScript.offset h k _ _ >>= fun i =>
    .ok (h.setItems cell ((h.items cell).set i v))) = _ ↔ _
  constructor
  · intro written
    obtain ⟨i, found, same⟩ := exists_of_bind_ok written
    obtain ⟨whole, below⟩ := offset_eq_ok.mp found
    exact ⟨i, whole, below, (Except.ok.inj same).symm⟩
  · rintro ⟨i, whole, below, rfl⟩
    rw [offset_eq_ok.mpr ⟨whole, below⟩]
    rfl

theorem javaScript_writeElement_list {h' : Heap} {v : Value} :
    JavaScript.writeElement h (.list cell) k v = .ok h' ↔
      ∃ n : Nat, k.whole? = some (n : Int) ∧ n ≤ (h.items cell).length ∧
        h' = h.setItems cell (if n = (h.items cell).length then h.items cell ++ [v]
          else (h.items cell).set n v) := by
  constructor
  · intro written
    obtain ⟨i, found, rest⟩ := exists_of_bind_ok written
    have whole := javaScript_position_eq_ok.mp found
    split at rest
    · cases rest
    · next inside =>
        rw [Bool.or_eq_true, decide_eq_true_iff, decide_eq_true_iff] at inside
        obtain ⟨n, rfl⟩ := Int.eq_ofNat_of_zero_le (a := i) (by omega)
        refine ⟨n, whole, by omega, ?_⟩
        split at rest
        · next atEnd =>
            rw [if_pos (Int.ofNat_inj.mp atEnd)]
            exact (Except.ok.inj rest).symm
        · next before =>
            rw [if_neg fun same => before (congrArg _ same)]
            exact (Except.ok.inj rest).symm
  · rintro ⟨n, whole, below, rfl⟩
    unfold JavaScript.writeElement
    dsimp only
    rw [javaScript_position_eq_ok.mpr whole]
    have inside : ¬ ((decide ((n : Int) < 0) ||
        decide (((h.items cell).length : Int) < n)) = true) := by
      rw [Bool.or_eq_true, decide_eq_true_iff, decide_eq_true_iff]
      omega
    change (if _ then _ else if (n : Int) = (h.items cell).length then _ else _) = _
    rw [if_neg inside]
    by_cases atEnd : n = (h.items cell).length
    · rw [if_pos atEnd, if_pos (congrArg _ atEnd)]
      rfl
    · rw [if_neg atEnd, if_neg fun same => atEnd (Int.ofNat_inj.mp same)]
      rfl

end Reading

namespace Language

variable {language : Language} {h h' : Heap} {c k v x : Value}

/-- What is read is what stands at the slot that the index denotes. -/
theorem readElement_eq_ok (made : c ∈ h.cells) :
    language.readElement h c k = .ok x ↔
      ∃ slot, language.slot? h c k = some slot ∧ h.at? c slot = some x := by
  cases c with
  | list cell =>
      cases language with
      | jikiScript =>
          refine jikiScript_readElement_list.trans ⟨?_, ?_⟩
          · rintro ⟨i, whole, stands⟩
            refine ⟨.position (i + 1 - 1), by rw [slot?, whole]; rfl, ?_⟩
            exact itemAt?_eq_some.mpr ⟨i, by omega, stands⟩
          · rintro ⟨slot, denoted, stands⟩
            obtain ⟨n, whole, rfl⟩ := Option.map_eq_some_iff.mp denoted
            obtain ⟨i, same, found⟩ := itemAt?_eq_some.mp stands
            refine ⟨i, ?_, found⟩
            rw [whole, ← same]
            exact congrArg some (Int.sub_add_cancel n 1).symm
      | javaScript =>
          refine javaScript_readElement_list.trans ⟨?_, ?_⟩
          · rintro ⟨i, whole, stands⟩
            refine ⟨.position (i - 0), by rw [slot?, whole]; rfl, ?_⟩
            rwa [Int.sub_zero]
          · rintro ⟨slot, denoted, stands⟩
            obtain ⟨n, whole, rfl⟩ := Option.map_eq_some_iff.mp denoted
            exact ⟨n, whole, Int.sub_zero n ▸ stands⟩
  | dict cell =>
      have keyed : (h.entries cell).lookup (h.output k) = some x ↔
          ∃ slot, some (Slot.key (h.output k)) = some slot ∧
            h.at? (.dict cell) slot = some x := by
        constructor
        · exact fun found => ⟨_, rfl, found⟩
        · rintro ⟨_, ⟨⟩, found⟩
          exact found
      cases language with
      | jikiScript => exact readKey_eq_ok.trans keyed
      | javaScript => exact readKey_eq_ok.trans keyed
  | _ => simp [Heap.cells] at made

theorem puts_of_writeElement (written : language.writeElement h c k v = .ok h') :
    ∃ slot, language.slot? h c k = some slot ∧ h.Puts v c slot h' := by
  cases c with
  | list cell =>
      cases language with
      | jikiScript =>
          obtain ⟨i, whole, below, rfl⟩ := jikiScript_writeElement_list.mp written
          refine ⟨.position i, ?_, .replaced below⟩
          rw [slot?, whole]
          exact congrArg (some ∘ Slot.position) (Int.add_sub_cancel (i : Int) 1)
      | javaScript =>
          obtain ⟨n, whole, below, rfl⟩ := javaScript_writeElement_list.mp written
          refine ⟨.position n, ?_, ?_⟩
          · rw [slot?, whole]
            exact congrArg (some ∘ Slot.position) (Int.sub_zero n)
          · split
            · next atEnd =>
                subst atEnd
                exact .added
            · exact .replaced (by omega)
  | dict cell =>
      cases language with
      | jikiScript =>
          cases k with
          | text key =>
              cases written
              exact ⟨.key key, congrArg (some ∘ Slot.key) (output_text h key), .entered⟩
          | _ => cases written
      | javaScript =>
          cases written
          exact ⟨_, rfl, .entered⟩
  | _ => cases language <;> cases written

/-- Where an element can be read, it can be written, except that a JikiScript dictionary is written
by texts only. -/
theorem exists_writeElement (made : c ∈ h.cells) (read : language.readElement h c k = .ok x)
    (text : language = .jikiScript → ∀ cell, c = .dict cell → k.isText = true) (v : Value) :
    ∃ h', language.writeElement h c k v = .ok h' := by
  cases c with
  | list cell =>
      cases language with
      | jikiScript =>
          obtain ⟨i, whole, stands⟩ := jikiScript_readElement_list.mp read
          have below := (List.getElem?_eq_some_iff.mp stands).1
          exact ⟨_, jikiScript_writeElement_list.mpr ⟨i, whole, below, rfl⟩⟩
      | javaScript =>
          obtain ⟨i, whole, stands⟩ := javaScript_readElement_list.mp read
          obtain ⟨n, rfl, found⟩ := itemAt?_eq_some.mp stands
          have below := (List.getElem?_eq_some_iff.mp found).1
          exact ⟨_, javaScript_writeElement_list.mpr ⟨n, whole, Nat.le_of_lt below, rfl⟩⟩
  | dict cell =>
      cases language with
      | jikiScript =>
          cases k with
          | text key => exact ⟨_, rfl⟩
          | _ => cases text rfl cell rfl
      | javaScript => exact ⟨_, rfl⟩
  | _ => simp [Heap.cells] at made

/-- What is said when an index is not read depends on what it denotes, and on the length of a list,
which is told. -/
theorem atLength_of_readElement {fault fault' : Fault} (made : c ∈ h.cells)
    (settled : language.slot? h' c k = language.slot? h c k)
    (failed : language.readElement h c k = .error fault)
    (failed' : language.readElement h' c k = .error fault') :
    fault' = fault.atLength (h'.length c) := by
  cases c with
  | list cell =>
      cases language with
      | jikiScript =>
          change (JikiScript.offset h k _ _ >>= fun i =>
            .ok ((h.items cell)[i]?.getD .nothing)) = _ at failed
          change (JikiScript.offset h' k _ _ >>= fun i =>
            .ok ((h'.items cell)[i]?.getD .nothing)) = _ at failed'
          exact atLength_of_offset (error_of_bind_ok failed) (error_of_bind_ok failed')
      | javaScript =>
          have told := fault_of_javaScript_readElement failed'
          rw [position_heap h h'] at told
          rcases fault_of_javaScript_readElement failed with unread | ⟨i, found, rfl⟩
          · rw [unread] at told
            rcases told with same | ⟨_, found, -⟩
            · cases same
              exact (atLength_of_position unread _).symm
            · cases found
          · rw [found] at told
            rcases told with unread | ⟨_, same, rfl⟩
            · cases unread
            · cases same
              rfl
  | dict cell =>
      have text : h'.output k = h.output k := Slot.key.inj (Option.some.inj settled)
      cases language <;>
      · rw [← fault_of_readKey failed, ← fault_of_readKey failed', text]
        rfl
  | _ => simp [Heap.cells] at made

/-- A read whose slot holds what it held gives what it gave, and a failure tells the length that the
collection has now. -/
theorem readElement_retold (made : c ∈ h.cells) (still : c ∈ h'.cells)
    (settled : language.slot? h' c k = language.slot? h c k)
    (same : ∀ slot, language.slot? h c k = some slot → h'.at? c slot = h.at? c slot) :
    language.readElement h' c k =
      (language.readElement h c k).mapError (Fault.atLength (h'.length c)) := by
  cases read : language.readElement h c k with
  | ok x =>
      obtain ⟨slot, denoted, stands⟩ := (readElement_eq_ok made).mp read
      exact (readElement_eq_ok still).mpr
        ⟨slot, settled.trans denoted, (same slot denoted).trans stands⟩
  | error fault =>
      cases read' : language.readElement h' c k with
      | ok x =>
          obtain ⟨slot, denoted, stands⟩ := (readElement_eq_ok still).mp read'
          have before := settled.symm.trans denoted
          have found := (readElement_eq_ok made).mpr
            ⟨slot, before, (same slot before).symm.trans stands⟩
          cases read.symm.trans found
      | error fault' =>
          exact congrArg Except.error (atLength_of_readElement made settled read read')

theorem mapError_readElement (made : c ∈ h.cells) {length : Nat}
    (long : ∀ cell, c = .list cell → length = h.length c) :
    (language.readElement h c k).mapError (Fault.atLength length) =
      language.readElement h c k := by
  cases read : language.readElement h c k with
  | ok x => rfl
  | error fault =>
      refine congrArg Except.error ?_
      cases c with
      | list cell => rw [long cell rfl, ← atLength_of_readElement made rfl read read]
      | dict cell => cases language <;> rw [← fault_of_readKey read] <;> rfl
      | _ => simp [Heap.cells] at made

/-- An index that does not contain the collection denotes after a write what it denoted before. -/
theorem slot?_of_puts {slot : Slot} (puts : h.Puts v c slot h')
    (apart : ¬ Relation.ReflTransGen h.Holds k c) :
    language.slot? h' c k = language.slot? h c k := by
  have shown : h'.output k = h.output k := by
    unfold Heap.output Heap.freeze
    rw [puts.size_eq, Heap.freezeTo_of_differAt puts.differAt _ apart]
  cases c with
  | dict cell => exact congrArg (some ∘ Slot.key) shown
  | _ => rfl

section Evaluations

variable {W : Type}

/-- The element of a collection, as an evaluation reads it. -/
def fetch (language : Language) (position : Position) (c k : Value) : Exec W Value := do
  Exec.orRaise position (language.readElement (← Exec.heap) c k)

/-- A value put in an element of a collection, as an evaluation does it. -/
def put (language : Language) (position : Position) (c k v : Value) : Exec W Unit :=
  Exec.rewrite position (language.writeElement · c k v)

theorem put_apply (language : Language) (position : Position) (c k v : Value) (m : Machine W) :
    language.put position c k v m =
      match language.writeElement m.heap c k v with
      | .ok heap => .ok () { m with heap }
      | .error fault => .error ⟨fault, position⟩ m :=
  Exec.rewrite_apply position (language.writeElement · c k v) m

/-- What a program reads at an index is fetched from the value of the object, at the value of the
index, and what it writes there is put there. -/
def FetchesAndPuts (W : Type) : Language → Prop
  | .jikiScript =>
    (∀ (call : Caller W) object key position,
      JikiScript.eval call (.index object key position) = (do
        let c ← JikiScript.eval call object
        let k ← JikiScript.eval call key
        Language.jikiScript.fetch position c k)) ∧
    ∀ (call : Caller W) s object key value position,
      s = .changeElement object key value position →
      JikiScript.exec call s = (do
        let c ← JikiScript.eval call object
        let k ← JikiScript.eval call key
        let v ← JikiScript.eval call value
        Language.jikiScript.put position c k v
        let index ← Exec.freeze k
        s.recordValue v (.changeElement (JikiScript.rootName object) index ·)
        return .normal)
  | .javaScript =>
    (∀ (call : Caller W) object key position,
      JavaScript.eval call (.index object key position) = (do
        let c ← JavaScript.eval call object
        let k ← JavaScript.eval call key
        Language.javaScript.fetch position c k)) ∧
    ∀ (call : Caller W) object key position v,
      JavaScript.store call (.index object key position) v = (do
        let c ← JavaScript.eval call object
        let k ← JavaScript.eval call key
        Language.javaScript.put position c k v
        return (object.dottedName?.getD "") ++ "[" ++ (← Exec.heap).display k ++ "]")

theorem fetchesAndPuts (W : Type) (language : Language) : language.FetchesAndPuts W := by
  cases language with
  | jikiScript =>
      constructor
      · intro call object key position
        rw [JikiScript.eval]
        rfl
      · rintro call _ object key value position rfl
        rw [JikiScript.exec]
        simp only [Language.put, Exec.rewrite, bind_assoc]
        rfl
  | javaScript =>
      constructor
      · intro call object key position
        rw [JavaScript.eval]
        rfl
      · intro call object key position v
        rw [JavaScript.store]
        simp only [Language.put, Exec.rewrite, bind_assoc]
        rfl

end Evaluations
end Language
end Walkthrough
