import Walkthrough.Proofs.Elements

/-! The laws of maps, for the elements of lists and dictionaries. What was written is read, and
nothing else is read otherwise than before. There are two exceptions: an index that contains the
collection denotes another key once this was written, and a JikiScript dictionary is written by
texts only. -/

namespace Walkthrough

namespace Language

variable {language : Language} {h h' : Heap} {c k v : Value}

/-- What a write that succeeded has done. -/
structure Wrote (language : Language) (h : Heap) (c k v : Value) (h' : Heap) : Prop where
  /-- The value is read back, as long as the index denotes what it denoted. -/
  held : language.slot? h' c k = language.slot? h c k → language.readElement h' c k = .ok v
  /-- So are the values at other slots; failures, too, are as they were if no list has grown, and
  otherwise but tell the length that the list has now. -/
  others : ∀ other, language.slot? h' c other = language.slot? h c other →
    language.slot? h c other ≠ language.slot? h c k →
    (language.readElement h' c other).toOption = (language.readElement h c other).toOption ∧
      ((∀ cell, c = .list cell → h'.length c = h.length c) →
        language.readElement h' c other = language.readElement h c other) ∧
      language.readElement h' c other =
        (language.readElement h c other).mapError (Fault.atLength (h'.length c))
  /-- Only an index that contains the collection can come to denote something else. -/
  settled : ∀ other, ¬ Relation.ReflTransGen h.Holds other c →
    language.slot? h' c other = language.slot? h c other
  length : h'.length c =
    h.length c + if (language.readElement h c k).toOption.isSome then 0 else 1
  /-- A list that has grown is one of JavaScript, and was written at its end. -/
  grown : ∀ cell, c = .list cell → h'.length c ≠ h.length c →
    language = .javaScript ∧ language.slot? h c k = some (.position (h.length c))
  differ : h.DifferAt c h'

theorem toOption_readElement (made : c ∈ h.cells) :
    (language.readElement h c k).toOption = (language.slot? h c k).bind (h.at? c) := by
  ext x
  rw [Option.bind_eq_some_iff, ← readElement_eq_ok made]
  cases language.readElement h c k with
  | error fault => exact ⟨nofun, nofun⟩
  | ok value => exact ⟨fun same => congrArg Except.ok (Option.some.inj same),
      fun same => congrArg some (Except.ok.inj same)⟩

theorem javaScript_of_grown {cell : Nat} (made : .list cell ∈ h.cells)
    (written : language.writeElement h (.list cell) k v = .ok h')
    (grown : h'.length (.list cell) ≠ h.length (.list cell)) :
    language = .javaScript ∧
      language.slot? h (.list cell) k = some (.position (h.length (.list cell))) := by
  cases language with
  | jikiScript =>
      obtain ⟨i, -, below, rfl⟩ := jikiScript_writeElement_list.mp written
      rw [Heap.length_list, Heap.length_list,
        Heap.items_setItems_self (Heap.list_mem_cells.mp made), List.length_set] at grown
      exact absurd rfl grown
  | javaScript =>
      obtain ⟨n, whole, below, rfl⟩ := javaScript_writeElement_list.mp written
      rw [Heap.length_list, Heap.length_list,
        Heap.items_setItems_self (Heap.list_mem_cells.mp made)] at grown
      split at grown
      · next atEnd =>
          refine ⟨rfl, ?_⟩
          rw [slot?, whole, Heap.length_list, ← atEnd]
          exact congrArg (some ∘ Slot.position) (Int.sub_zero n)
      · rw [List.length_set] at grown
        exact absurd rfl grown

theorem wrote_of_writeElement (made : c ∈ h.cells)
    (written : language.writeElement h c k v = .ok h') : language.Wrote h c k v h' := by
  obtain ⟨slot, denoted, puts⟩ := puts_of_writeElement written
  have still : c ∈ h'.cells := puts.cells_eq.symm ▸ made
  have elsewhere {other : Value} (apart : language.slot? h c other ≠ language.slot? h c k)
      (slot' : Slot) (found : language.slot? h c other = some slot') :
      h'.at? c slot' = h.at? c slot' := by
    rw [puts.at?_eq made, if_neg]
    rintro rfl
    exact apart (found.trans denoted.symm)
  have retold {other : Value} (same : language.slot? h' c other = language.slot? h c other)
      (apart : language.slot? h c other ≠ language.slot? h c k) :=
    readElement_retold made still same (elsewhere apart)
  refine ⟨fun same => ?_, fun other same apart => ⟨?_, fun length => ?_, retold same apart⟩,
    fun other apart => slot?_of_puts puts apart, ?_, ?_, puts.differAt⟩
  · refine (readElement_eq_ok still).mpr ⟨slot, same.trans denoted, ?_⟩
    rw [puts.at?_eq made, if_pos rfl]
  · rw [retold same apart]
    cases language.readElement h c other <;> rfl
  · exact (retold same apart).trans (mapError_readElement made length)
  · rw [puts.length_eq made, toOption_readElement made, denoted]
    rfl
  · rintro cell rfl
    exact javaScript_of_grown made written

theorem apart_of_plain (made : c ∈ h.cells) (plain : k.isCollection = false) :
    ¬ Relation.ReflTransGen h.Holds k c := by
  intro leads
  obtain rfl | ⟨w, holds, -⟩ := leads.cases_head
  · cases k with
    | list _ | dict _ => cases plain
    | _ => simp [Heap.cells] at made
  · cases holds <;> cases plain

/-- What can be read can be written, except at an index of a JikiScript dictionary that is no text.
A value that is written is read back, other elements are as they were, and a collection grows by one
exactly if nothing was there; a write that fails changes nothing. What a program reads and writes at
an index is read and written so. -/
theorem elements_obey_map_laws {W : Type} (language : Language) {h : Heap} {c : Value}
    (made : c ∈ h.cells) (k v : Value) :
    ((∃ x, language.readElement h c k = .ok x) →
      (language = .jikiScript → ∀ cell, c = .dict cell → k.isText = true) →
      ∃ h', language.writeElement h c k v = .ok h') ∧
    (∀ h', language.writeElement h c k v = .ok h' → language.Wrote h c k v h') ∧
    (∀ (m m' : Machine W) position, m.heap = h → language.put position c k v m = .ok () m' →
      language.Wrote h c k v m'.heap) ∧
    (∀ (m m' : Machine W) position failure, m.heap = h →
      language.put position c k v m = .error failure m' → m' = m) ∧
    language.FetchesAndPuts W := by
  refine ⟨fun ⟨x, read⟩ text => exists_writeElement made read text v,
    fun h' => wrote_of_writeElement made, ?_, ?_, fetchesAndPuts W language⟩
  · rintro m m' position rfl ended
    rw [put_apply] at ended
    split at ended
    · next heap written =>
        cases ended
        exact wrote_of_writeElement made written
    · cases ended
  · rintro m m' position failure rfl ended
    rw [put_apply] at ended
    split at ended
    · cases ended
    · cases ended
      rfl

def shelves : Heap where
  lists := #[[.number 1.0, .number 2.0]]
  dicts := #[[("1", .text "a")]]

theorem shelves_obey_map_laws :
    (∃ h', JavaScript.writeElement shelves (.list 0) (.number 2.0) (.dict 0) = .ok h' ∧
      h'.length (.list 0) = 3 ∧
      JavaScript.readElement h' (.list 0) (.number 2.0) = .ok (.dict 0) ∧
      (JavaScript.readElement h' (.list 0) (.number 1.0)).toOption = some (.number 2.0)) ∧
    (∃ h', JikiScript.writeElement shelves (.dict 0) (.text "1") (.list 0) = .ok h' ∧
      h'.length (.dict 0) = 1 ∧
      JikiScript.readElement h' (.dict 0) (.text "1") = .ok (.list 0)) := by
  have list : .list 0 ∈ shelves.cells := by decide
  have dict : .dict 0 ∈ shelves.cells := by decide
  obtain ⟨-, writes, -⟩ :=
    elements_obey_map_laws (W := Unit) .javaScript list (.number 2.0) (.dict 0)
  obtain ⟨writable, puts, -⟩ :=
    elements_obey_map_laws (W := Unit) .jikiScript dict (.text "1") (.list 0)
  constructor
  · have written : JavaScript.writeElement shelves (.list 0) (.number 2.0) (.dict 0) = .ok _ :=
      javaScript_writeElement_list.mpr ⟨2, by decide +kernel, by decide, rfl⟩
    have wrote := writes _ written
    have second := (wrote.others (.number 1.0) rfl (by decide +kernel)).1
    refine ⟨_, written, wrote.length.trans (by decide +kernel), wrote.held rfl, ?_⟩
    exact second.trans (by decide +kernel)
  · obtain ⟨h', written⟩ := writable ⟨.text "a", by decide +kernel⟩ fun _ _ _ => rfl
    have wrote := puts h' written
    have same := wrote.settled (.text "1") (apart_of_plain dict rfl)
    exact ⟨h', written, wrote.length.trans (by decide +kernel), wrote.held same⟩

/-- A dictionary is read by the text of a number, but it is not written so. A dictionary that is its
own index has another text once it was written. And a list that has grown tells another length of
itself. -/
theorem map_laws_have_exceptions :
    (JikiScript.readElement shelves (.dict 0) (.number 1.0) = .ok (.text "a") ∧
      (JikiScript.writeElement shelves (.dict 0) (.number 1.0) .nothing).toOption.isNone = true) ∧
    (∃ h', JavaScript.writeElement shelves (.dict 0) (.dict 0) .nothing = .ok h' ∧
      JavaScript.readElement h' (.dict 0) (.dict 0) =
        .error (.propertyNotFound (h'.output (.dict 0)))) ∧
    (∃ h', JavaScript.writeElement shelves (.list 0) (.number 2.0) .nothing = .ok h' ∧
      JavaScript.readElement shelves (.list 0) (.number 5.0) =
        .error (.indexOutsideOnRead 5 2 "list") ∧
      JavaScript.readElement h' (.list 0) (.number 5.0) =
        .error (.indexOutsideOnRead 5 3 "list")) := by
  have written : JavaScript.writeElement shelves (.list 0) (.number 2.0) .nothing = .ok _ :=
    javaScript_writeElement_list.mpr ⟨2, by decide +kernel, by decide, rfl⟩
  refine ⟨⟨by decide +kernel, by decide +kernel⟩, ⟨_, rfl, by decide +kernel⟩, _, written, ?_⟩
  exact ⟨by decide +kernel, by decide +kernel⟩

end Language
end Walkthrough
