import Mathlib.Data.List.Perm.Subperm
import Mathlib.Logic.Relation
import Walkthrough.Proofs.Keys
import Walkthrough.Proofs.Thawing

/-! Comparing a value with what a host expects. The comparison counts the entries of a dictionary
and looks for each of them among the expected ones. Since no key stands twice on either side, that
leaves no expected entry over: the keys are the same, and the order of the entries does not
matter. -/

namespace Walkthrough

namespace KeysDistinct

variable {α β : Type} {es fs : List (String × α)}

theorem lookup_perm (distinct : KeysDistinct es) (same : es.Perm fs) (key : String) :
    es.lookup key = fs.lookup key := by
  apply Option.ext
  intro value
  rw [distinct.lookup_iff, (distinct.perm same).lookup_iff, same.mem_iff]

/-- As many keys as there are on the other side, all of them there, are all the keys there. -/
theorem keys_perm {gs : List (String × β)} (distinct : KeysDistinct es)
    (count : es.length = gs.length) (found : ∀ e ∈ es, e.1 ∈ gs.map (·.1)) :
    (es.map (·.1)).Perm (gs.map (·.1)) := by
  have within : es.map (·.1) ⊆ gs.map (·.1) := by
    intro key member
    obtain ⟨e, here, rfl⟩ := List.mem_map.mp member
    exact found e here
  refine (List.subperm_of_subset distinct within).perm_of_length_le ?_
  rw [List.length_map, List.length_map, count]

end KeysDistinct

namespace Json

/-- One is the other with the entries of one object in it in another order. -/
inductive Reorders : Json → Json → Prop
  | entries {es fs : List (String × Json)} : es.Perm fs → Reorders (.obj es) (.obj fs)
  | item {j k : Json} (front behind : List Json) : Reorders j k →
      Reorders (.arr (front ++ j :: behind)) (.arr (front ++ k :: behind))
  | entry {j k : Json} (front : List (String × Json)) (key : String)
      (behind : List (String × Json)) : Reorders j k →
      Reorders (.obj (front ++ (key, j) :: behind)) (.obj (front ++ (key, k) :: behind))

end Json

namespace Snapshot

/-- Two values of the same shape that show the same: the same text, truth value or nothing, numbers
that are equal as doubles, lists of equal length with values that agree position by position, and
dictionaries with the same keys and values that agree key by key. -/
inductive Agrees : Snapshot → Snapshot → Prop
  | number {x y : Float} : (x == y) = true → Agrees (.number x) (.number y)
  | text (s : String) : Agrees (.text s) (.text s)
  | boolean (b : Bool) : Agrees (.boolean b) (.boolean b)
  | nothing : Agrees .nothing .nothing
  | list {items others : List Snapshot} : items.length = others.length →
      (∀ (i : Nat) (s t : Snapshot), items[i]? = some s → others[i]? = some t → Agrees s t) →
      Agrees (.list items) (.list others)
  | dict {entries others : List (String × Snapshot)} :
      (∀ key, key ∈ entries.map (·.1) ↔ key ∈ others.map (·.1)) →
      (∀ key s t, (key, s) ∈ entries → (key, t) ∈ others → Agrees s t) →
      Agrees (.dict entries) (.dict others)

/-- One value is the other with the entries of one dictionary in it in another order. -/
inductive Reorders : Snapshot → Snapshot → Prop
  | entries {es fs : List (String × Snapshot)} : es.Perm fs → Reorders (.dict es) (.dict fs)
  | item {s t : Snapshot} (front behind : List Snapshot) : Reorders s t →
      Reorders (.list (front ++ s :: behind)) (.list (front ++ t :: behind))
  | entry {s t : Snapshot} (front : List (String × Snapshot)) (key : String)
      (behind : List (String × Snapshot)) : Reorders s t →
      Reorders (.dict (front ++ (key, s) :: behind)) (.dict (front ++ (key, t) :: behind))

/-! ### Lists and dictionaries of the comparison -/

theorem matchesItems_iff (items : List Snapshot) (js : List Json) :
    matchesItems items js = true ↔ List.Forall₂ (fun s j => s.matchesJson j = true) items js := by
  induction items generalizing js with
  | nil => cases js <;> simp [matchesItems]
  | cons item rest ih => cases js <;> simp [matchesItems, ih]

theorem matchesEntries_eq_all (entries : List (String × Snapshot)) (js : List (String × Json)) :
    matchesEntries entries js = entries.all fun e => (js.lookup e.1).any e.2.matchesJson := by
  induction entries with
  | nil => rfl
  | cons entry rest ih =>
      rw [matchesEntries, List.all_cons, ih]
      cases js.lookup entry.1 <;> rfl

theorem matchesJson_dict (entries : List (String × Snapshot)) (js : List (String × Json)) :
    (dict entries).matchesJson (.obj js) = (entries.length == js.length &&
      entries.all fun e => (js.lookup e.1).any e.2.matchesJson) := by
  rw [matchesJson, matchesEntries_eq_all]

/-- Every entry has a partner of its key, among entries with distinct keys. -/
theorem matchesJson_dict_iff {entries : List (String × Snapshot)} {js : List (String × Json)}
    (distinct : KeysDistinct js) :
    (dict entries).matchesJson (.obj js) = true ↔ entries.length = js.length ∧
      ∀ e ∈ entries, ∃ j, (e.1, j) ∈ js ∧ e.2.matchesJson j = true := by
  rw [matchesJson_dict, Bool.and_eq_true, beq_iff_eq, List.all_eq_true]
  simp only [Option.any_eq_true, distinct.lookup_iff]

/-! ### Agreement -/

theorem agrees_number_iff {x y : Float} : Agrees (.number x) (.number y) ↔ (x == y) = true := by
  constructor
  · rintro ⟨equal⟩
    exact equal
  · exact .number

theorem agrees_text_iff {s t : String} : Agrees (.text s) (.text t) ↔ s = t := by
  constructor
  · rintro ⟨⟩
    rfl
  · rintro rfl
    exact .text s

theorem agrees_boolean_iff {a b : Bool} : Agrees (.boolean a) (.boolean b) ↔ a = b := by
  constructor
  · rintro ⟨⟩
    rfl
  · rintro rfl
    exact .boolean a

theorem agrees_list_iff {items others : List Snapshot} :
    Agrees (.list items) (.list others) ↔ List.Forall₂ Agrees items others := by
  rw [List.forall₂_iff_get]
  constructor
  · rintro (_ | _ | _ | _ | ⟨same, each⟩)
    refine ⟨same, ?_⟩
    intro i bound bound'
    exact each i _ _ (List.getElem?_eq_getElem bound) (List.getElem?_eq_getElem bound')
  · rintro ⟨same, each⟩
    refine .list same ?_
    intro i s t here there
    obtain ⟨bound, rfl⟩ := List.getElem?_eq_some_iff.mp here
    obtain ⟨bound', rfl⟩ := List.getElem?_eq_some_iff.mp there
    exact each i bound bound'

theorem agrees_dict_iff {entries others : List (String × Snapshot)} :
    Agrees (.dict entries) (.dict others) ↔
      (∀ key, key ∈ entries.map (·.1) ↔ key ∈ others.map (·.1)) ∧
        ∀ key s t, (key, s) ∈ entries → (key, t) ∈ others → Agrees s t := by
  constructor
  · rintro (_ | _ | _ | _ | _ | ⟨keys, each⟩)
    exact ⟨keys, each⟩
  · rintro ⟨keys, each⟩
    exact .dict keys each

theorem matchesJson_list_iff {items : List Snapshot} {js : List Json}
    (each : ∀ s ∈ items, ∀ j ∈ js, (s.matchesJson j = true ↔ Agrees s (ofJson j))) :
    (list items).matchesJson (.arr js) = true ↔ Agrees (.list items) (ofJson (.arr js)) := by
  rw [matchesJson, matchesItems_iff, ofJson, ofJsonItems_eq_map, agrees_list_iff,
    List.forall₂_map_right_iff]
  induction items generalizing js with
  | nil => cases js <;> simp
  | cons s rest ih =>
      cases js with
      | nil => simp
      | cons j others =>
          rw [List.forall₂_cons, List.forall₂_cons, each s List.mem_cons_self j List.mem_cons_self]
          rw [ih fun s member j member' =>
            each s (List.mem_cons_of_mem _ member) j (List.mem_cons_of_mem _ member')]

/-- Dictionaries match where each key of either is one of the other and the values match. -/
theorem matchesJson_dict_agrees {entries : List (String × Snapshot)} {js : List (String × Json)}
    (keys : KeysDistinct entries) (keys' : KeysDistinct js)
    (each : ∀ e ∈ entries, ∀ f ∈ js, (e.2.matchesJson f.2 = true ↔ Agrees e.2 (ofJson f.2))) :
    (dict entries).matchesJson (.obj js) = true ↔ Agrees (.dict entries) (ofJson (.obj js)) := by
  rw [matchesJson_dict_iff keys', ofJson, ofJsonEntries_eq_map, agrees_dict_iff]
  have sameKeys : (js.map fun e => (e.1, ofJson e.2)).map (·.1) = js.map (·.1) := by
    rw [List.map_map]
    rfl
  rw [sameKeys]
  constructor
  · -- only one inclusion was looked up; the other one follows from the count
    rintro ⟨count, partners⟩
    have found : ∀ e ∈ entries, e.1 ∈ js.map (·.1) := by
      intro e member
      obtain ⟨j, there, -⟩ := partners e member
      exact List.mem_map_of_mem there
    refine ⟨fun key => (keys.keys_perm count found).mem_iff, ?_⟩
    rintro key s t here there
    obtain ⟨⟨_, j⟩, member, same⟩ := List.mem_map.mp there
    cases same
    obtain ⟨j', member', matched⟩ := partners _ here
    have one := (keys'.lookup_iff.mpr member).symm.trans (keys'.lookup_iff.mpr member')
    cases one
    exact (each _ here _ member).mp matched
  · rintro ⟨same, agree⟩
    constructor
    · have perm := (List.perm_ext_iff_of_nodup keys keys').mpr same
      simpa using perm.length_eq
    · rintro ⟨key, s⟩ here
      obtain ⟨⟨_, j⟩, there, rfl⟩ := List.mem_map.mp ((same key).mp (List.mem_map_of_mem here))
      have other := List.mem_map_of_mem (f := fun e : String × Json => (e.1, ofJson e.2)) there
      exact ⟨j, there, (each _ here _ there).mpr (agree _ s _ here other)⟩

theorem matchesJson_iff {s : Snapshot} (distinct : s.Distinct) {j : Json} (distinct' : j.Distinct) :
    s.matchesJson j = true ↔ Agrees s (ofJson j) := by
  induction distinct generalizing j with
  | number x =>
      cases j with
      | int n => rw [matchesJson, ofJson, agrees_number_iff]
      | float y => rw [matchesJson, ofJson, agrees_number_iff]
      | null | bool _ | str _ | arr _ | obj _ =>
          constructor <;> intro impossible <;> cases impossible
  | text s =>
      cases j with
      | str t => rw [matchesJson, ofJson, agrees_text_iff, beq_iff_eq]
      | null | bool _ | int _ | float _ | arr _ | obj _ =>
          constructor <;> intro impossible <;> cases impossible
  | boolean b =>
      cases j with
      | bool c => rw [matchesJson, ofJson, agrees_boolean_iff, beq_iff_eq]
      | null | int _ | float _ | str _ | arr _ | obj _ =>
          constructor <;> intro impossible <;> cases impossible
  | nothing =>
      cases j with
      | null => exact ⟨fun _ => .nothing, fun _ => rfl⟩
      | bool _ | int _ | float _ | str _ | arr _ | obj _ =>
          constructor <;> intro impossible <;> cases impossible
  | list _ ih =>
      cases j with
      | arr js =>
          have inner := Json.distinct_arr_iff.mp distinct'
          exact matchesJson_list_iff fun s member j member' => ih s member (inner j member')
      | null | bool _ | int _ | float _ | str _ | obj _ =>
          constructor <;> intro impossible <;> cases impossible
  | dict keys _ ih =>
      cases j with
      | obj js =>
          obtain ⟨keys', inner⟩ := Json.distinct_obj_iff.mp distinct'
          exact matchesJson_dict_agrees keys keys' fun e member f member' =>
            ih e member (inner f member')
      | null | bool _ | int _ | float _ | str _ | arr _ =>
          constructor <;> intro impossible <;> cases impossible

/-! ### The order of entries -/

variable {s t : Snapshot} {j k : Json}

theorem matchesItems_congr (same : t.matchesJson = s.matchesJson) (front behind : List Snapshot)
    (js : List Json) : matchesItems (front ++ t :: behind) js =
      matchesItems (front ++ s :: behind) js := by
  induction front generalizing js with
  | nil =>
      cases js with
      | nil => rfl
      | cons j js => rw [List.nil_append, List.nil_append, matchesItems, matchesItems, same]
  | cons first rest ih =>
      cases js with
      | nil => rfl
      | cons j js => rw [List.cons_append, List.cons_append, matchesItems, matchesItems, ih]

/-- Another order of the entries of a dictionary, at any depth, is no other value. -/
theorem Reorders.matchesJson_eq (reorders : Reorders s t) : t.matchesJson = s.matchesJson := by
  induction reorders with
  | entries perm =>
      funext j
      cases j with
      | obj js => rw [matchesJson_dict, matchesJson_dict, perm.length_eq, perm.all_eq]
      | null | bool _ | int _ | float _ | str _ | arr _ => rfl
  | item front behind _ ih =>
      funext j
      cases j with
      | arr js =>
          rw [matchesJson, matchesJson]
          exact matchesItems_congr ih front behind js
      | null | bool _ | int _ | float _ | str _ | obj _ => rfl
  | entry front key behind _ ih =>
      funext j
      cases j with
      | obj js =>
          simp only [matchesJson_dict, List.length_append, List.length_cons, List.all_append,
            List.all_cons, ih]
      | null | bool _ | int _ | float _ | str _ | arr _ => rfl

theorem matchesItems_congr_right (same : ∀ s : Snapshot, s.matchesJson k = s.matchesJson j)
    (front behind : List Json) (items : List Snapshot) :
    matchesItems items (front ++ k :: behind) = matchesItems items (front ++ j :: behind) := by
  induction front generalizing items with
  | nil =>
      cases items with
      | nil => rfl
      | cons s items => rw [List.nil_append, List.nil_append, matchesItems, matchesItems, same]
  | cons first rest ih =>
      cases items with
      | nil => rfl
      | cons s items => rw [List.cons_append, List.cons_append, matchesItems, matchesItems, ih]

theorem any_lookup_congr (same : ∀ s : Snapshot, s.matchesJson k = s.matchesJson j)
    (front : List (String × Json)) (key : String) (behind : List (String × Json))
    (entry : String × Snapshot) :
    ((front ++ (key, k) :: behind).lookup entry.1).any entry.2.matchesJson =
      ((front ++ (key, j) :: behind).lookup entry.1).any entry.2.matchesJson := by
  rw [List.lookup_append, List.lookup_append, lookup_cons_eq_ite, lookup_cons_eq_ite]
  cases front.lookup entry.1 with
  | some found => rfl
  | none =>
      rw [Option.none_or, Option.none_or]
      split
      · exact same entry.2
      · rfl

theorem matchesJson_reordered (reorders : Json.Reorders j k) (distinct : j.Distinct)
    (s : Snapshot) : s.matchesJson k = s.matchesJson j := by
  induction reorders generalizing s with
  | entries perm =>
      obtain ⟨keys, -⟩ := Json.distinct_obj_iff.mp distinct
      cases s with
      | dict entries => simp only [matchesJson_dict, perm.length_eq, keys.lookup_perm perm]
      | number _ | text _ | boolean _ | list _ | nothing => rfl
  | item front behind _ ih =>
      have inner := Json.distinct_arr_iff.mp distinct
      have same := ih (inner _ (List.mem_append_right front List.mem_cons_self))
      cases s with
      | list items =>
          rw [matchesJson, matchesJson]
          exact matchesItems_congr_right same front behind items
      | number _ | text _ | boolean _ | dict _ | nothing => rfl
  | entry front key behind _ ih =>
      obtain ⟨-, inner⟩ := Json.distinct_obj_iff.mp distinct
      have same := ih (inner _ (List.mem_append_right front List.mem_cons_self))
      cases s with
      | dict entries =>
          simp only [matchesJson_dict, List.length_append, List.length_cons,
            any_lookup_congr same front key behind]
      | number _ | text _ | boolean _ | list _ | nothing => rfl

theorem distinct_reordered (reorders : Json.Reorders j k) (distinct : j.Distinct) :
    k.Distinct := by
  induction reorders with
  | entries perm =>
      obtain ⟨keys, inner⟩ := Json.distinct_obj_iff.mp distinct
      exact .obj (keys.perm perm) fun e member => inner e (perm.mem_iff.mpr member)
  | item front behind _ ih =>
      obtain ⟨before, after⟩ := List.forall_mem_append.mp (Json.distinct_arr_iff.mp distinct)
      obtain ⟨here, after⟩ := List.forall_mem_cons.mp after
      exact .arr (List.forall_mem_append.mpr ⟨before, List.forall_mem_cons.mpr ⟨ih here, after⟩⟩)
  | entry front key behind _ ih =>
      obtain ⟨keys, inner⟩ := Json.distinct_obj_iff.mp distinct
      obtain ⟨before, after⟩ := List.forall_mem_append.mp inner
      obtain ⟨here, after⟩ := List.forall_mem_cons.mp after
      refine .obj (keys.of_keys ?_) (List.forall_mem_append.mpr
        ⟨before, List.forall_mem_cons.mpr ⟨ih here, after⟩⟩)
      simp

theorem matchesJson_reorderings (reordered : Relation.ReflTransGen Reorders s t)
    (reordered' : Relation.ReflTransGen Json.Reorders j k) (distinct : j.Distinct) :
    t.matchesJson k = s.matchesJson j := by
  have left : t.matchesJson = s.matchesJson := by
    induction reordered with
    | refl => rfl
    | tail _ last ih => rw [last.matchesJson_eq, ih]
  have right : k.Distinct ∧ s.matchesJson k = s.matchesJson j := by
    induction reordered' with
    | refl => exact ⟨distinct, rfl⟩
    | tail _ last ih =>
        exact ⟨distinct_reordered last ih.1, (matchesJson_reordered last ih.1 s).trans ih.2⟩
  rw [left, right.2]

/-- A value matches what a host expects exactly if it agrees with the value that would stand for
that in a program, where no key stands twice in either. So other orders of the entries, at any
depth and on both sides, give the same answer. -/
theorem comparison_is_structural (h : Heap) {s : Snapshot} {j : Json} (distinct : s.Distinct)
    (distinct' : j.Distinct) :
    (s.matchesJson j = true ↔ Agrees s ((h.thaw (ofJson j)).2.freeze (h.thaw (ofJson j)).1)) ∧
    ∀ t k, Relation.ReflTransGen Reorders s t → Relation.ReflTransGen Json.Reorders j k →
      t.matchesJson k = s.matchesJson j := by
  constructor
  · rw [h.freeze_thaw]
    exact matchesJson_iff distinct distinct'
  · intro t k reordered reordered'
    exact matchesJson_reorderings reordered reordered' distinct'

/-- A dictionary in a list in a dictionary, with the keys of both in other orders. -/
theorem inner_entries_change_places :
    let inner := [("x", number 1), ("y", text "one")]
    let s := dict [("row", list [dict inner]), ("size", nothing)]
    let t := dict [("row", list [dict inner.reverse]), ("size", nothing)]
    let j := Json.obj [("row", .arr [.obj [("x", .int 1), ("y", .str "one")]]), ("size", .null)]
    s.Distinct ∧ j.Distinct ∧ t.matchesJson j = true ∧
      Agrees s ((Heap.empty.thaw (ofJson j)).2.freeze (Heap.empty.thaw (ofJson j)).1) := by
  intro inner s t j
  have distinct : s.Distinct := by
    have values : ∀ e ∈ inner, e.2.Distinct := by
      simp [inner, Distinct.number, Distinct.text]
    have row : (list [dict inner]).Distinct :=
      .list (List.forall_mem_singleton.mpr (.dict (by decide) values))
    exact .dict (by decide) (by simp [row, Distinct.nothing])
  have distinct' : j.Distinct := by
    have row : (Json.arr [.obj [("x", .int 1), ("y", .str "one")]]).Distinct :=
      .arr (List.forall_mem_singleton.mpr
        (.obj (by decide) (by simp [Json.Distinct.int, Json.Distinct.str])))
    exact .obj (by decide) (by simp [row, Json.Distinct.null])
  obtain ⟨structural, reorderings⟩ := comparison_is_structural .empty distinct distinct'
  have matched : s.matchesJson j = true := by decide +kernel
  have turned : Reorders s t := .entry [] "row" _ (.item [] [] (.entries inner.reverse_perm.symm))
  refine ⟨distinct, distinct', ?_, structural.mp matched⟩
  rw [reorderings t j (.single turned) .refl, matched]

end Snapshot
end Walkthrough
