import Walkthrough.Proofs.Freezing
import Walkthrough.Proofs.Thawing

/-! Copies share nothing. A collection that stands in two places of a value is copied twice, so the
copy is a tree of new cells: no write to the one changes what the other shows. -/

namespace Walkthrough.Heap

variable {h h' h'' : Heap} {v w : Value}

/-! ### What is frozen -/

theorem Freezes.unique {shown other : Snapshot} (frozen : h.Freezes v shown)
    (again : h.Freezes v other) : shown = other := by
  induction frozen generalizing other with
  | number _ | text _ | boolean _ | nothing => cases again; rfl
  | list _ ih =>
      obtain _ | _ | _ | _ | inner := again
      refine congrArg Snapshot.list (List.map_congr_left fun x member => ?_)
      exact ih x member (inner x member)
  | dict _ ih =>
      obtain _ | _ | _ | _ | _ | inner := again
      refine congrArg Snapshot.dict (List.map_congr_left fun e member => ?_)
      rw [ih e member (inner e member)]

theorem Freezes.held {shown : Snapshot} (frozen : h.Freezes v shown) (holds : h.Holds v w) :
    ∃ inner, h.Freezes w inner := by
  cases holds with
  | item member =>
      obtain _ | _ | _ | _ | inner := frozen
      exact ⟨_, inner _ member⟩
  | entry member =>
      obtain _ | _ | _ | _ | _ | inner := frozen
      exact ⟨_, inner _ member⟩

theorem Freezes.reached {shown : Snapshot} (frozen : h.Freezes v shown) (reached : h.Reaches v w) :
    ∃ inner, h.Freezes w inner := by
  induction reached with
  | refl => exact ⟨shown, frozen⟩
  | tail _ holds ih =>
      obtain ⟨inner, middle⟩ := ih
      exact middle.held holds

theorem Freezes.acyclicAt {shown : Snapshot} (frozen : h.Freezes v shown) : h.AcyclicAt v := by
  intro w reached
  obtain ⟨inner, frozen⟩ := frozen.reached reached
  exact frozen.not_cyclic

/-- If copying ends at all, it ends with the copy that is made within the bound. -/
theorem Freezes.freeze_eq {shown : Snapshot} (frozen : h.Freezes v shown) : h.freeze v = shown :=
  frozen.acyclicAt.freezes.unique frozen

/-- The cells that the value reaches in the first heap have the same in them in the second. -/
structure Alike (h h' : Heap) (v : Value) : Prop where
  items : ∀ cell, h.Reaches v (.list cell) → h'.items cell = h.items cell
  entries : ∀ cell, h.Reaches v (.dict cell) → h'.entries cell = h.entries cell

theorem Alike.held (alike : Alike h h' v) (holds : h.Holds v w) : Alike h h' w where
  items cell reached := alike.items cell (.head holds reached)
  entries cell reached := alike.entries cell (.head holds reached)

theorem Freezes.alike {shown : Snapshot} (frozen : h.Freezes v shown) (alike : Alike h h' v) :
    h'.Freezes v shown := by
  induction frozen with
  | number x => exact .number x
  | text s => exact .text s
  | boolean b => exact .boolean b
  | nothing => exact .nothing
  | @list cell copy _ ih =>
      have same := alike.items cell .refl
      rw [← same]
      refine .list fun x member => ?_
      rw [same] at member
      exact ih x member (alike.held (.item member))
  | @dict cell copy _ ih =>
      have same := alike.entries cell .refl
      rw [← same]
      refine .dict fun e member => ?_
      rw [same] at member
      exact ih e member (alike.held (.entry member))

/-! ### Cells and what is written to them -/

def Stands (h : Heap) (v : Value) : Prop :=
  ∀ w, h.Reaches v w → w.MadeIn .zero h.mark

theorem Stands.held (stands : h.Stands v) (holds : h.Holds v w) : h.Stands w :=
  fun u reached => stands u (.head holds reached)

theorem Extends.alike (extended : Extends h h') (stands : h.Stands v) : Alike h h' v where
  items cell reached := extended.kept.items cell (stands _ reached).2
  entries cell reached := extended.kept.entries cell (stands _ reached).2

/-- What a heap becomes when cells are made, and when cells are written: the new ones, and those
that may be. -/
inductive Later (may : Value → Prop) (h : Heap) : Heap → Prop
  | now : Later may h h
  | newList {h' : Heap} (xs : List Value) : Later may h h' → Later may h (h'.newList xs).2
  | newDict {h' : Heap} (es : List (String × Value)) :
      Later may h h' → Later may h (h'.newDict es).2
  | setItems {h' : Heap} (cell : Nat) (xs : List Value) : Later may h h' →
      may (.list cell) ∨ h.mark.lists ≤ cell → Later may h (h'.setItems cell xs)
  | setEntries {h' : Heap} (cell : Nat) (es : List (String × Value)) : Later may h h' →
      may (.dict cell) ∨ h.mark.dicts ≤ cell → Later may h (h'.setEntries cell es)

namespace Later

variable {may : Value → Prop}

theorem mark_le (later : h.Later may h') : h.mark ≤ h'.mark := by
  induction later with
  | now => exact le_rfl
  | newList xs _ ih => exact ih.trans (mark_le_newList _ xs)
  | newDict es _ ih => exact ih.trans (mark_le_newDict _ es)
  | setItems cell xs _ _ ih => exact ih.trans (by simp [mark, Heap.setItems])
  | setEntries cell es _ _ ih => exact ih.trans (by simp [mark, Heap.setEntries])

theorem items_eq (later : h.Later may h') {cell : Nat} (there : cell < h.mark.lists)
    (barred : ¬ may (.list cell)) : h'.items cell = h.items cell := by
  induction later with
  | now => rfl
  | newList xs earlier ih =>
      rw [(kept_newList _ xs).items cell (Nat.lt_of_lt_of_le there earlier.mark_le.1), ih]
  | newDict _ _ ih => exact ih
  | @setItems h' target xs _ allowed ih =>
      rcases h'.items_setItems target cell xs with same | ⟨rfl, -⟩
      · rw [same, ih]
      · exact absurd allowed (not_or.mpr ⟨barred, Nat.not_le.mpr there⟩)
  | setEntries _ _ _ _ ih => exact ih

theorem entries_eq (later : h.Later may h') {cell : Nat} (there : cell < h.mark.dicts)
    (barred : ¬ may (.dict cell)) : h'.entries cell = h.entries cell := by
  induction later with
  | now => rfl
  | newList _ _ ih => exact ih
  | newDict es earlier ih =>
      rw [(kept_newDict _ es).entries cell (Nat.lt_of_lt_of_le there earlier.mark_le.2), ih]
  | setItems _ _ _ _ ih => exact ih
  | @setEntries h' target es _ allowed ih =>
      rcases h'.entries_setEntries target cell es with same | ⟨rfl, -⟩
      · rw [same, ih]
      · exact absurd allowed (not_or.mpr ⟨barred, Nat.not_le.mpr there⟩)

theorem freeze_eq (later : h'.Later may h'') (extended : Extends h h') (stands : h.Stands v)
    (acyclic : h.AcyclicAt v) (barred : ∀ w, h.Reaches v w → w.isCollection → ¬ may w) :
    h''.freeze v = h.freeze v := by
  have before := extended.alike stands
  have alike : Alike h h'' v :=
    { items cell reached := by
        have there := Nat.lt_of_lt_of_le (stands _ reached).2 extended.grown.1
        rw [later.items_eq there (barred _ reached rfl), before.items cell reached]
      entries cell reached := by
        have there := Nat.lt_of_lt_of_le (stands _ reached).2 extended.grown.2
        rw [later.entries_eq there (barred _ reached rfl), before.entries cell reached] }
  exact (acyclic.freezes.alike alike).freeze_eq

end Later

/-! ### Walking through values -/

/-- Walking through the values and all that they hold meets the cells. A cell that is held in two
places is met twice. -/
inductive Unfolds (h : Heap) : List Value → List Value → Prop
  | nil : Unfolds h [] []
  | plain {v : Value} {vs cells : List Value} : v.isCollection = false → Unfolds h vs cells →
      Unfolds h (v :: vs) cells
  | list {cell : Nat} {vs inner cells : List Value} : Unfolds h (h.items cell) inner →
      Unfolds h vs cells → Unfolds h (.list cell :: vs) (.list cell :: (inner ++ cells))
  | dict {cell : Nat} {vs inner cells : List Value} :
      Unfolds h ((h.entries cell).map Prod.snd) inner → Unfolds h vs cells →
      Unfolds h (.dict cell :: vs) (.dict cell :: (inner ++ cells))

namespace Unfolds

variable {vs ws cells cells' : List Value}

theorem append (first : h.Unfolds vs cells) (second : h.Unfolds ws cells') :
    h.Unfolds (vs ++ ws) (cells ++ cells') := by
  induction first with
  | nil => exact second
  | plain plain _ ih => exact .plain plain ih
  | list inner _ _ ih =>
      rw [List.cons_append, List.cons_append, List.append_assoc]
      exact .list inner ih
  | dict inner _ _ ih =>
      rw [List.cons_append, List.cons_append, List.append_assoc]
      exact .dict inner ih

theorem isCollection (walk : h.Unfolds vs cells) : ∀ w ∈ cells, w.isCollection := by
  induction walk with
  | nil => exact List.forall_mem_nil _
  | plain _ _ ih => exact ih
  | list _ _ inside ih | dict _ _ inside ih =>
      exact List.forall_mem_cons.mpr ⟨rfl, List.forall_mem_append.mpr ⟨inside, ih⟩⟩

/-- What a value holds is met as often as the value is, so a walk goes on through it. -/
theorem held (walk : h.Unfolds vs cells) (there : v ∈ vs) (holds : h.Holds v w) :
    ∃ vs' cells', h.Unfolds vs' cells' ∧ w ∈ vs' ∧ cells' ⊆ cells := by
  induction walk with
  | nil => cases there
  | plain plain _ ih =>
      rcases List.mem_cons.mp there with rfl | there
      · cases holds <;> cases plain
      · exact ih there
  | list inner _ _ ih =>
      rcases List.mem_cons.mp there with rfl | there
      · cases holds with
        | item member =>
            exact ⟨_, _, inner, member,
              List.subset_cons_of_subset _ (List.subset_append_left _ _)⟩
      · obtain ⟨vs', cells', walk', member, within⟩ := ih there
        exact ⟨vs', cells', walk', member,
          List.subset_cons_of_subset _ (List.Subset.trans within (List.subset_append_right _ _))⟩
  | dict inner _ _ ih =>
      rcases List.mem_cons.mp there with rfl | there
      · cases holds with
        | entry member =>
            exact ⟨_, _, inner, List.mem_map_of_mem member,
              List.subset_cons_of_subset _ (List.subset_append_left _ _)⟩
      · obtain ⟨vs', cells', walk', member, within⟩ := ih there
        exact ⟨vs', cells', walk', member,
          List.subset_cons_of_subset _ (List.Subset.trans within (List.subset_append_right _ _))⟩

theorem mem_cells (walk : h.Unfolds vs cells) (there : v ∈ vs) (collection : v.isCollection) :
    v ∈ cells := by
  induction walk with
  | nil => cases there
  | plain plain _ ih =>
      rcases List.mem_cons.mp there with rfl | there
      · rw [plain] at collection
        cases collection
      · exact ih there
  | list _ _ _ ih | dict _ _ _ ih =>
      rcases List.mem_cons.mp there with rfl | there
      · exact List.mem_cons_self
      · exact List.mem_cons_of_mem _ (List.mem_append_right _ (ih there))

/-- A walk meets every cell that can be reached. -/
theorem reached (walk : h.Unfolds vs cells) (there : v ∈ vs) (reached : h.Reaches v w)
    (collection : w.isCollection) : w ∈ cells := by
  induction reached using Relation.ReflTransGen.head_induction_on generalizing vs cells with
  | refl => exact walk.mem_cells there collection
  | head holds _ ih =>
      obtain ⟨vs', cells', walk', member, within⟩ := walk.held there holds
      exact within (ih walk' member)

theorem freezes (walk : h.Unfolds vs cells) : ∀ v ∈ vs, ∃ shown, h.Freezes v shown := by
  induction walk with
  | nil => exact List.forall_mem_nil _
  | @plain v _ _ plain _ ih =>
      refine List.forall_mem_cons.mpr ⟨?_, ih⟩
      cases v with
      | list _ | dict _ => cases plain
      | number x => exact ⟨_, .number x⟩
      | text s => exact ⟨_, .text s⟩
      | boolean b => exact ⟨_, .boolean b⟩
      | nothing => exact ⟨_, .nothing⟩
  | list _ _ inside ih =>
      choose! copy copied using inside
      exact List.forall_mem_cons.mpr ⟨⟨_, .list copied⟩, ih⟩
  | dict _ _ inside ih =>
      choose! copy copied using inside
      exact List.forall_mem_cons.mpr
        ⟨⟨_, .dict fun e member => copied e.2 (List.mem_map_of_mem member)⟩, ih⟩

theorem acyclicAt (walk : h.Unfolds [v] cells) : h.AcyclicAt v := by
  obtain ⟨shown, frozen⟩ := walk.freezes v List.mem_cons_self
  exact frozen.acyclicAt

theorem stands (walk : h.Unfolds [v] cells) (there : ∀ w ∈ cells, w.MadeIn .zero h.mark) :
    h.Stands v := by
  intro w reached
  cases plain : w.isCollection with
  | false => exact Value.madeIn_of_plain plain _ _
  | true => exact there w (walk.reached List.mem_cons_self reached plain)

end Unfolds

/-! ### Trees of new cells -/

theorem not_madeIn_twice {first second third : Mark} (made : w.MadeIn first second)
    (again : w.MadeIn second third) : w.isCollection = false := by
  cases w with
  | list _ | dict _ => exact absurd made.2 (Nat.not_lt.mpr again.1)
  | number _ | text _ | boolean _ | nothing => rfl

/-- Between the two heaps the values were made: walking through them meets no cell twice, and none
that was there before. -/
structure Owns (h h' : Heap) (vs cells : List Value) : Prop where
  extended : Extends h h'
  walk : ∀ {h'' : Heap}, Extends h' h'' → h''.Unfolds vs cells
  distinct : cells.Nodup
  made : ∀ w ∈ cells, w.MadeIn h.mark h'.mark

namespace Owns

variable {vs ws cells cells' : List Value}

theorem none (h : Heap) : Owns h h [] [] :=
  ⟨.refl h, fun _ => .nil, List.nodup_nil, List.forall_mem_nil _⟩

theorem plain (h : Heap) (plain : v.isCollection = false) : Owns h h [v] [] :=
  ⟨.refl h, fun _ => .plain plain .nil, List.nodup_nil, List.forall_mem_nil _⟩

theorem both (first : Owns h h' vs cells) (second : Owns h' h'' ws cells') :
    Owns h h'' (vs ++ ws) (cells ++ cells') where
  extended := first.extended.trans second.extended
  walk extended := (first.walk (second.extended.trans extended)).append (second.walk extended)
  distinct := by
    refine List.nodup_append.mpr ⟨first.distinct, second.distinct, ?_⟩
    rintro w early _ late rfl
    have plain := not_madeIn_twice (first.made w early) (second.made w late)
    rw [(first.walk second.extended).isCollection w early] at plain
    cases plain
  made := List.forall_mem_append.mpr
    ⟨fun w member => (first.made w member).widen le_rfl second.extended.grown,
      fun w member => (second.made w member).widen first.extended.grown le_rfl⟩

theorem newList (owned : Owns h h' vs cells) :
    Owns h (h'.newList vs).2 [(h'.newList vs).1] ((h'.newList vs).1 :: (cells ++ [])) where
  extended := owned.extended.trans (.newList h' vs)
  walk {later} extended := by
    have kept : later.items h'.lists.size = vs := by
      rw [extended.kept.items _ (by rw [mark_newList]; exact Nat.lt_succ_self _), items_newList,
        if_pos rfl]
    refine .list ?_ .nil
    rw [kept]
    exact owned.walk ((Extends.newList h' vs).trans extended)
  distinct := by
    rw [List.append_nil]
    exact List.nodup_cons.mpr
      ⟨fun member => Nat.lt_irrefl _ (owned.made _ member).2, owned.distinct⟩
  made := by
    rw [List.append_nil]
    exact List.forall_mem_cons.mpr ⟨h'.newList_madeIn owned.extended.grown vs,
      fun w member => (owned.made w member).widen le_rfl (h'.mark_le_newList vs)⟩

theorem newDict {es : List (String × Value)} (owned : Owns h h' (es.map Prod.snd) cells) :
    Owns h (h'.newDict es).2 [(h'.newDict es).1] ((h'.newDict es).1 :: (cells ++ [])) where
  extended := owned.extended.trans (.newDict h' es)
  walk {later} extended := by
    have kept : later.entries h'.dicts.size = es := by
      rw [extended.kept.entries _ (by rw [mark_newDict]; exact Nat.lt_succ_self _),
        entries_newDict, if_pos rfl]
    refine .dict ?_ .nil
    rw [kept]
    exact owned.walk ((Extends.newDict h' es).trans extended)
  distinct := by
    rw [List.append_nil]
    exact List.nodup_cons.mpr
      ⟨fun member => Nat.lt_irrefl _ (owned.made _ member).2, owned.distinct⟩
  made := by
    rw [List.append_nil]
    exact List.forall_mem_cons.mpr ⟨h'.newDict_madeIn owned.extended.grown es,
      fun w member => (owned.made w member).widen le_rfl (h'.mark_le_newDict es)⟩

end Owns

mutual

theorem owns_thaw (h : Heap) : ∀ s : Snapshot, ∃ cells, Owns h (h.thaw s).2 [(h.thaw s).1] cells
  | .number _ => ⟨[], .plain h rfl⟩
  | .text _ => ⟨[], .plain h rfl⟩
  | .boolean _ => ⟨[], .plain h rfl⟩
  | .nothing => ⟨[], .plain h rfl⟩
  | .list items => by
      obtain ⟨cells, owned⟩ := owns_thawItems h items
      exact ⟨_, owned.newList⟩
  | .dict entries => by
      obtain ⟨cells, owned⟩ := owns_thawEntries h entries
      exact ⟨_, owned.newDict⟩

theorem owns_thawItems (h : Heap) : ∀ ss : List Snapshot,
    ∃ cells, Owns h (h.thawItems ss).2 (h.thawItems ss).1 cells
  | [] => ⟨[], .none h⟩
  | s :: rest => by
      obtain ⟨cells, first⟩ := owns_thaw h s
      obtain ⟨cells', others⟩ := owns_thawItems (h.thaw s).2 rest
      exact ⟨cells ++ cells', first.both others⟩

theorem owns_thawEntries (h : Heap) : ∀ es : List (String × Snapshot),
    ∃ cells, Owns h (h.thawEntries es).2 ((h.thawEntries es).1.map Prod.snd) cells
  | [] => ⟨[], .none h⟩
  | (_, s) :: rest => by
      obtain ⟨cells, first⟩ := owns_thaw h s
      obtain ⟨cells', others⟩ := owns_thawEntries (h.thaw s).2 rest
      exact ⟨cells ++ cells', first.both others⟩

end

/-! ### Copying cell by cell -/

mutual

/-- Copying a value without a snapshot in between: a collection becomes a new one of copies of what
it holds, which are made first. -/
inductive Clones : Heap → Value → Value → Heap → Prop
  | plain {h : Heap} {v : Value} : v.isCollection = false → Clones h v v h
  | list {h h' : Heap} {cell : Nat} {xs : List Value} : ClonesItems h (h.items cell) xs h' →
      Clones h (.list cell) (h'.newList xs).1 (h'.newList xs).2
  | dict {h h' : Heap} {cell : Nat} {es : List (String × Value)} :
      ClonesEntries h (h.entries cell) es h' →
      Clones h (.dict cell) (h'.newDict es).1 (h'.newDict es).2

inductive ClonesItems : Heap → List Value → List Value → Heap → Prop
  | nil {h : Heap} : ClonesItems h [] [] h
  | cons {h h' h'' : Heap} {x y : Value} {xs ys : List Value} : Clones h x y h' →
      ClonesItems h' xs ys h'' → ClonesItems h (x :: xs) (y :: ys) h''

inductive ClonesEntries : Heap → List (String × Value) → List (String × Value) → Heap → Prop
  | nil {h : Heap} : ClonesEntries h [] [] h
  | cons {h h' h'' : Heap} {key : String} {x y : Value} {es fs : List (String × Value)} :
      Clones h x y h' → ClonesEntries h' es fs h'' →
      ClonesEntries h ((key, x) :: es) ((key, y) :: fs) h''

end

/-- Wherever there are the same cells and maybe others, copying the value cell by cell ends, in
one way, and it makes what thawing the snapshot makes. -/
def CopiedAs (h : Heap) (v : Value) (s : Snapshot) : Prop :=
  ∀ {g : Heap}, Extends h g → ∀ c g', g.Clones v c g' ↔ (c, g') = g.thaw s

theorem Extends.thaw (extended : Extends h h') (s : Snapshot) : Extends h (h'.thaw s).2 :=
  extended.trans (since_thaw h' s).extended

theorem copiedAs_of_plain {s : Snapshot} (plain : v.isCollection = false)
    (same : ∀ g : Heap, g.thaw s = (v, g)) : h.CopiedAs v s := by
  intro g _ c g'
  rw [same]
  constructor
  · intro cloned
    cases cloned with
    | plain _ => rfl
    | list _ | dict _ => cases plain
  · rintro ⟨⟩
    exact .plain plain

theorem clonesItems_iff {copy : Value → Snapshot} {xs : List Value}
    (copied : ∀ x ∈ xs, h.CopiedAs x (copy x)) {g : Heap} (extended : Extends h g)
    (ys : List Value) (g' : Heap) :
    g.ClonesItems xs ys g' ↔ (ys, g') = g.thawItems (xs.map copy) := by
  induction xs generalizing g ys g' with
  | nil =>
      constructor
      · rintro ⟨⟩
        rfl
      · rintro ⟨⟩
        exact .nil
  | cons x xs ih =>
      obtain ⟨first, others⟩ := List.forall_mem_cons.mp copied
      have next := ih others (extended.thaw (copy x))
      constructor
      · rintro (_ | ⟨cloned, rest⟩)
        obtain ⟨rfl, rfl⟩ := Prod.mk.inj ((first extended _ _).mp cloned)
        obtain ⟨rfl, rfl⟩ := Prod.mk.inj ((next _ _).mp rest)
        rfl
      · rintro ⟨⟩
        exact .cons ((first extended _ _).mpr rfl) ((next _ _).mpr rfl)

theorem clonesEntries_iff {copy : Value → Snapshot} {es : List (String × Value)}
    (copied : ∀ e ∈ es, h.CopiedAs e.2 (copy e.2)) {g : Heap} (extended : Extends h g)
    (fs : List (String × Value)) (g' : Heap) :
    g.ClonesEntries es fs g' ↔ (fs, g') = g.thawEntries (es.map fun e => (e.1, copy e.2)) := by
  induction es generalizing g fs g' with
  | nil =>
      constructor
      · rintro ⟨⟩
        rfl
      · rintro ⟨⟩
        exact .nil
  | cons e es ih =>
      obtain ⟨first, others⟩ := List.forall_mem_cons.mp copied
      have next := ih others (extended.thaw (copy e.2))
      constructor
      · rintro (_ | ⟨cloned, rest⟩)
        obtain ⟨rfl, rfl⟩ := Prod.mk.inj ((first extended _ _).mp cloned)
        obtain ⟨rfl, rfl⟩ := Prod.mk.inj ((next _ _).mp rest)
        rfl
      · rintro ⟨⟩
        exact .cons ((first extended _ _).mpr rfl) ((next _ _).mpr rfl)

theorem Freezes.copiedAs {shown : Snapshot} (frozen : h.Freezes v shown) (stands : h.Stands v) :
    h.CopiedAs v shown := by
  induction frozen with
  | number _ | text _ | boolean _ | nothing => exact copiedAs_of_plain rfl fun _ => rfl
  | @list cell copy _ ih =>
      intro g extended c g'
      have same : g.items cell = h.items cell := extended.kept.items cell (stands _ .refl).2
      have inner := clonesItems_iff (fun x member => ih x member (stands.held (.item member)))
        extended
      constructor
      · intro cloned
        cases cloned with
        | plain plain => cases plain
        | list items =>
            rw [same] at items
            obtain ⟨rfl, rfl⟩ := Prod.mk.inj ((inner _ _).mp items)
            rfl
      · rintro ⟨⟩
        refine .list ?_
        rw [same]
        exact (inner _ _).mpr rfl
  | @dict cell copy _ ih =>
      intro g extended c g'
      have same : g.entries cell = h.entries cell := extended.kept.entries cell (stands _ .refl).2
      have inner := clonesEntries_iff (fun e member => ih e member (stands.held (.entry member)))
        extended
      constructor
      · intro cloned
        cases cloned with
        | plain plain => cases plain
        | dict entries =>
            rw [same] at entries
            obtain ⟨rfl, rfl⟩ := Prod.mk.inj ((inner _ _).mp entries)
            rfl
      · rintro ⟨⟩
        refine .dict ?_
        rw [same]
        exact (inner _ _).mpr rfl

/-! ### Copies -/

/-- The second value was made as a copy of the first one. It shows the same, it is a tree of cells
that were not there before, and what is written to the cells of the one does not change what the
other shows. -/
structure CopyOf (h : Heap) (v c : Value) (h' : Heap) : Prop where
  shows : h'.freeze c = h.freeze v
  tree : ∃ cells, h'.Unfolds [c] cells ∧ cells.Nodup ∧ ∀ w ∈ cells, w.MadeIn h.mark h'.mark
  kept : Kept h.mark h h'
  original : ∀ h'', h'.Later (h'.Reaches c) h'' → h''.freeze v = h.freeze v
  copy : ∀ h'', h'.Later (h.Reaches v) h'' → h''.freeze c = h.freeze v

theorem copyOf_thaw (stands : h.Stands v) (acyclic : h.AcyclicAt v) :
    h.CopyOf v (h.thaw (h.freeze v)).1 (h.thaw (h.freeze v)).2 := by
  obtain ⟨cells, owned⟩ := owns_thaw h (h.freeze v)
  have shows := h.freeze_thaw (h.freeze v)
  generalize (h.thaw (h.freeze v)).1 = c at owned shows
  generalize (h.thaw (h.freeze v)).2 = h' at owned shows
  have walk : h'.Unfolds [c] cells := owned.walk (.refl h')
  have there : h'.Stands c :=
    walk.stands fun w member => (owned.made w member).widen h.mark.zero_le le_rfl
  -- what the copy reaches is new, and what the value reaches was there
  have apart : ∀ w, h'.Reaches c w → h.Reaches v w → ¬ w.isCollection := by
    intro w copied reached collection
    have new := owned.made w (walk.reached List.mem_cons_self copied collection)
    rw [not_madeIn_twice (stands w reached) new] at collection
    cases collection
  exact
    { shows
      tree := ⟨cells, walk, owned.distinct, owned.made⟩
      kept := owned.extended.kept
      original h'' later :=
        later.freeze_eq owned.extended stands acyclic fun w reached collection copied =>
          apart w copied reached collection
      copy h'' later := by
        rw [← shows]
        exact later.freeze_eq (.refl h') there walk.acyclicAt fun w copied collection reached =>
          apart w copied reached collection }

/-- A value that does not contain itself can be copied, cell by cell or by thawing what is shown,
and both make the same: a copy that shares no cell with the value and none with itself. And
whatever is thawed shows what it was thawed from. -/
theorem copies_are_unshared {h : Heap} {v : Value} (stands : h.Stands v)
    (acyclic : h.AcyclicAt v) :
    (∀ c h', h.Clones v c h' ↔ (c, h') = h.deepCopy v) ∧
      h.deepCopy v = h.thaw (h.freeze v) ∧
      h.Freezes v (h.freeze v) ∧
      h.CopyOf v (h.deepCopy v).1 (h.deepCopy v).2 ∧
      ∀ (g : Heap) (f : Snapshot), (g.thaw f).2.freeze (g.thaw f).1 = f := by
  have frozen := acyclic.freezes
  exact ⟨frozen.copiedAs stands (.refl h), rfl, frozen, copyOf_thaw stands acyclic, freeze_thaw⟩

/-- A list that holds another one twice is copied to a list that holds two. -/
theorem twice_held_list_is_unshared :
    let h : Heap := ⟨#[[.text "x"], [.list 0, .list 0]], #[]⟩
    (h.Stands (.list 1) ∧ h.AcyclicAt (.list 1)) ∧
      h.CopyOf (.list 1) (.list 4) (h.deepCopy (.list 1)).2 ∧
      (h.deepCopy (.list 1)).2.items 4 = [.list 2, .list 3] := by
  intro h
  have inner : h.Unfolds (h.items 0) [] := .plain rfl .nil
  have twice : h.Unfolds (h.items 1) [.list 0, .list 0] := .list inner (.list inner .nil)
  have walk : h.Unfolds [.list 1] [.list 1, .list 0, .list 0] := .list twice .nil
  have stands : h.Stands (.list 1) := by
    refine walk.stands ?_
    rintro w (_ | ⟨_, _ | ⟨_, _ | ⟨_, ⟨⟩⟩⟩⟩) <;> exact ⟨Nat.zero_le _, by decide⟩
  have acyclic := walk.acyclicAt
  exact ⟨⟨stands, acyclic⟩, (copies_are_unshared stands acyclic).2.2.2.1, by decide +kernel⟩

end Walkthrough.Heap
