import Walkthrough.Proofs.Navigation

/-! How near the nearest frame is. The search looks forwards for the first visible frame that is not
before a time, and from there backwards for the last visible one. In an ordered run these are the
visible frames next to the time on its two sides, so that the nearer of them is nearest of all. -/

namespace Walkthrough.Navigation

variable {frames : List Frame} {folded : Lines} {time : Micros} {f g : Frame} {i j : Nat}
variable {before after : Nat}

def Ordered (frames : List Frame) : Prop :=
  frames.Pairwise fun f g => f.time ≤ g.time

instance : Decidable (Ordered frames) :=
  inferInstanceAs (Decidable (List.Pairwise _ frames))

theorem Ordered.le (h : Ordered frames) (hf : frames[i]? = some f) (hg : frames[j]? = some g)
    (le : i ≤ j) : f.time ≤ g.time := by
  obtain ⟨hi, rfl⟩ := List.getElem?_eq_some_iff.mp hf
  obtain ⟨hj, rfl⟩ := List.getElem?_eq_some_iff.mp hg
  rcases Nat.lt_or_eq_of_le le with lt | rfl
  · exact List.pairwise_iff_getElem.mp h i j hi hj lt
  · exact UInt64.le_refl _

/-! ### The two candidates -/

theorem candidate_after
    (ahead : frames.findIdx? (fun f => time ≤ f.time && isVisible folded f) = some after) :
    ∃ a, frames[after]? = some a ∧ time ≤ a.time ∧ isVisible folded a = true ∧
      ∀ j g, frames[j]? = some g → isVisible folded g = true → j < after → g.time < time := by
  obtain ⟨a, here, holds⟩ := findIdx?_holds ahead
  rw [Bool.and_eq_true, decide_eq_true_eq] at holds
  refine ⟨a, here, holds.1, holds.2, ?_⟩
  intro j g there visible earlier
  by_contra late
  have first := findIdx?_le ahead there (by simp [visible, UInt64.not_lt.mp late])
  omega

theorem candidate_before
    (preceding : lastIndex? (isVisible folded) (frames.take after) = some before) :
    ∃ b, frames[before]? = some b ∧ isVisible folded b = true ∧ before < after ∧
      ∀ j g, frames[j]? = some g → isVisible folded g = true → j < after → j ≤ before := by
  obtain ⟨b, taken, visible⟩ := lastIndex?_holds preceding
  obtain ⟨earlier, here⟩ : before < after ∧ frames[before]? = some b := by
    simpa [List.getElem?_take] using taken
  refine ⟨b, here, visible, earlier, ?_⟩
  intro j g there seen inFront
  exact le_lastIndex? preceding (by simpa [List.getElem?_take, inFront] using there) seen

theorem no_candidate_before
    (preceding : lastIndex? (isVisible folded) (frames.take after) = none)
    (here : frames[j]? = some g) (visible : isVisible folded g = true) : after ≤ j := by
  by_contra inFront
  have taken : (frames.take after)[j]? = some g := by
    simpa [List.getElem?_take, Nat.lt_of_not_le inFront] using here
  have hidden := lastIndex?_eq_none preceding g (List.mem_of_getElem? taken)
  simp [visible] at hidden

/-! ### Checked differences -/

def difference? (later earlier : Micros) : Option Micros :=
  if earlier ≤ later then some (later - earlier) else none

/-- The nearer of two frames, as `nearer` says; none if one of them is missing or a difference is
negative. -/
def checkedNearer? (frames : List Frame) (time : Micros) (before after : Nat) : Option Nat := do
  let b ← frames[before]?
  let a ← frames[after]?
  let toBefore ← difference? time b.time
  let toAfter ← difference? a.time time
  return if toBefore ≤ toAfter then before else after

/-- The search of `nearest?` with every difference checked; no answer at all if one is negative. -/
def checkedNearest? (frames : List Frame) (time : Micros) (folded : Lines) :
    Option (Option Nat) :=
  match frames.getLast? with
  | none => some none
  | some last =>
    let final := frames.length - 1
    if time = 0 then some (some 0)
    else if last.time < time then some (some final)
    else match frames.findIdx? fun f => time ≤ f.time && isVisible folded f with
      | none => some (some final)
      | some after =>
        match lastIndex? (isVisible folded) (frames.take after) with
        | some before => (checkedNearer? frames time before after).map some
        | none => some (some after)

/-- The candidates lie on the two sides of the time, whether or not the run is ordered. -/
theorem checkedNearer?_eq
    (ahead : frames.findIdx? (fun f => time ≤ f.time && isVisible folded f) = some after)
    (preceding : lastIndex? (isVisible folded) (frames.take after) = some before) :
    checkedNearer? frames time before after = some (nearer frames time before after) := by
  obtain ⟨a, hereAfter, late, -, front⟩ := candidate_after ahead
  obtain ⟨b, hereBefore, visible, earlier, -⟩ := candidate_before preceding
  have early : b.time ≤ time := UInt64.le_of_lt (front before b hereBefore visible earlier)
  simp [checkedNearer?, nearer, timeAt, difference?, hereBefore, hereAfter, early, late]

theorem checkedNearest?_eq (frames : List Frame) (time : Micros) (folded : Lines) :
    checkedNearest? frames time folded = some (nearest? frames time folded) := by
  unfold checkedNearest? nearest?
  cases frames.getLast? with
  | none => rfl
  | some last =>
      dsimp only
      split
      · rfl
      · split
        · rfl
        · cases ahead : frames.findIdx? fun f => time ≤ f.time && isVisible folded f with
          | none => rfl
          | some after =>
              dsimp only
              cases preceding : lastIndex? (isVisible folded) (frames.take after) with
              | none => rfl
              | some before =>
                  dsimp only
                  rw [checkedNearer?_eq ahead preceding, Option.map_some]

/-! ### Distances -/

def distance (time : Micros) (f : Frame) : Nat :=
  ((f.time.toNat : Int) - time.toNat).natAbs

/-- No visible frame is nearer to the time than this visible frame is, and if one on the side before
the time is as near, this one is on that side too. -/
structure IsNearest (frames : List Frame) (folded : Lines) (time : Micros) (f : Frame) : Prop where
  visible : isVisible folded f = true
  least : ∀ g ∈ frames, isVisible folded g = true → distance time f ≤ distance time g
  tie : ∀ g ∈ frames, isVisible folded g = true → distance time g = distance time f →
    g.time ≤ time → f.time ≤ time

theorem toNat_difference (le : time ≤ f.time) : (f.time - time).toNat = distance time f := by
  rw [UInt64.toNat_sub_of_le _ _ le]
  rw [UInt64.le_iff_toNat_le] at le
  unfold distance
  omega

theorem toNat_difference_before (le : f.time ≤ time) :
    (time - f.time).toNat = distance time f := by
  rw [UInt64.toNat_sub_of_le _ _ le]
  rw [UInt64.le_iff_toNat_le] at le
  unfold distance
  omega

theorem distance_le_behind (late : time ≤ f.time) (le : f.time ≤ g.time) :
    distance time f ≤ distance time g := by
  rw [UInt64.le_iff_toNat_le] at late le
  unfold distance
  omega

theorem distance_le_before (early : f.time ≤ time) (le : g.time ≤ f.time) :
    distance time f ≤ distance time g := by
  rw [UInt64.le_iff_toNat_le] at early le
  unfold distance
  omega

theorem nearer_eq {a b : Frame} (hereBefore : frames[before]? = some b) (early : b.time ≤ time)
    (hereAfter : frames[after]? = some a) (late : time ≤ a.time) :
    nearer frames time before after =
      if distance time b ≤ distance time a then before else after := by
  simp only [nearer, timeAt, hereBefore, hereAfter, Option.map_some, Option.getD_some]
  simp only [UInt64.le_iff_toNat_le, toNat_difference_before early, toNat_difference late]

/-! ### The nearest of all -/

theorem nearest?_inside {last : Frame} (start : 0 < time) (final : frames.getLast? = some last)
    (within : time ≤ last.time)
    (ahead : frames.findIdx? (fun f => time ≤ f.time && isVisible folded f) = some after) :
    nearest? frames time folded =
      some (((lastIndex? (isVisible folded) (frames.take after)).map fun before =>
        nearer frames time before after).getD after) := by
  have nonzero : time ≠ 0 := (UInt64.ne_of_lt start).symm
  have notPast : ¬ last.time < time := UInt64.not_lt.mpr within
  unfold nearest?
  simp only [final, nonzero, notPast, ahead, if_false]
  cases lastIndex? (isVisible folded) (frames.take after) <;> rfl

/-- Without a candidate in front, the one behind the time is the first visible frame of all. -/
theorem Ordered.isNearest_first (ordered : Ordered frames)
    (here : frames[after]? = some f) (late : time ≤ f.time) (visible : isVisible folded f = true)
    (first : ∀ j g, frames[j]? = some g → isVisible folded g = true → after ≤ j) :
    IsNearest frames folded time f := by
  have behind : ∀ g ∈ frames, isVisible folded g = true → f.time ≤ g.time := by
    intro g member seen
    obtain ⟨j, there⟩ := List.getElem?_of_mem member
    exact ordered.le here there (first j g there seen)
  refine ⟨visible, ?_, ?_⟩
  · intro g member seen
    exact distance_le_behind late (behind g member seen)
  · intro g member seen _ early
    exact UInt64.le_trans (behind g member seen) early

/-- With candidates on both sides, every visible frame is as far away as one of them. -/
theorem Ordered.isNearest_nearer {a b : Frame} (ordered : Ordered frames)
    (hereBefore : frames[before]? = some b) (early : b.time ≤ time)
    (seenBefore : isVisible folded b = true)
    (front : ∀ j g, frames[j]? = some g → isVisible folded g = true → j < after → j ≤ before)
    (hereAfter : frames[after]? = some a) (late : time ≤ a.time)
    (seenAfter : isVisible folded a = true) :
    IsNearest frames folded time (if distance time b ≤ distance time a then b else a) := by
  -- no visible frame is between the two, so one of them is between the time and any other
  have sides : ∀ g ∈ frames, isVisible folded g = true →
      distance time b ≤ distance time g ∨
        a.time ≤ g.time ∧ distance time a ≤ distance time g := by
    intro g member seen
    obtain ⟨j, there⟩ := List.getElem?_of_mem member
    by_cases inFront : j < after
    · have earlier := ordered.le there hereBefore (front j g there seen inFront)
      exact Or.inl (distance_le_before early earlier)
    · have later := ordered.le hereAfter there (Nat.le_of_not_lt inFront)
      exact Or.inr ⟨later, distance_le_behind late later⟩
  split
  · next close =>
      refine ⟨seenBefore, ?_, ?_⟩
      · intro g member seen
        rcases sides g member seen with near | ⟨-, near⟩
        · exact near
        · exact Nat.le_trans close near
      · intro _ _ _ _ _
        exact early
  · next far =>
      refine ⟨seenAfter, ?_, ?_⟩
      · intro g member seen
        rcases sides g member seen with near | ⟨-, near⟩ <;> omega
      · intro g member seen same before
        rcases sides g member seen with near | ⟨later, -⟩
        · omega
        · exact UInt64.le_trans later before

theorem Ordered.nearest (ordered : Ordered frames) (start : 0 < time)
    (followed : ∃ f ∈ frames, time ≤ f.time ∧ isVisible folded f = true) :
    ∃ i f, nearest? frames time folded = some i ∧ frames[i]? = some f ∧
      IsNearest frames folded time f := by
  obtain ⟨f, member, later, visible⟩ := followed
  obtain ⟨last, final⟩ : ∃ last, frames.getLast? = some last :=
    ⟨_, List.getLast?_eq_some_getLast (List.ne_nil_of_mem member)⟩
  have within : time ≤ last.time := by
    obtain ⟨k, here⟩ := List.getElem?_of_mem member
    obtain ⟨bound, -⟩ := List.getElem?_eq_some_iff.mp here
    have there := List.getLast?_eq_getElem?.symm.trans final
    exact UInt64.le_trans later (ordered.le here there (by omega))
  cases ahead : frames.findIdx? fun f => time ≤ f.time && isVisible folded f with
  | none =>
      have missing := List.findIdx?_eq_none_iff.mp ahead f member
      simp [later, visible] at missing
  | some after =>
      rw [nearest?_inside start final within ahead]
      obtain ⟨a, hereAfter, late, seenAfter, early⟩ := candidate_after ahead
      cases preceding : lastIndex? (isVisible folded) (frames.take after) with
      | none =>
          refine ⟨after, a, rfl, hereAfter, ?_⟩
          exact ordered.isNearest_first hereAfter late seenAfter fun _ _ =>
            no_candidate_before preceding
      | some before =>
          obtain ⟨b, hereBefore, seenBefore, earlier, front⟩ := candidate_before preceding
          have earlyBefore := UInt64.le_of_lt (early before b hereBefore seenBefore earlier)
          refine ⟨_, if distance time b ≤ distance time a then b else a, rfl, ?_, ?_⟩
          · rw [Option.map_some, Option.getD_some,
              nearer_eq hereBefore earlyBefore hereAfter late]
            split
            · exact hereBefore
            · exact hereAfter
          · exact ordered.isNearest_nearer hereBefore earlyBefore seenBefore front hereAfter late
              seenAfter

/-- The search for the nearest frame. In any run, ordered or not, its differences are those of a
larger time and a smaller one, and it gives the index of a frame, or none exactly when there is no
frame. In an ordered run, for a time other than 0 that some visible frame is not before, it gives a
visible frame, none is nearer, and one before the time is preferred. -/
theorem nearest_frame_is_optimal (frames : List Frame) (time : Micros) (folded : Lines) :
    checkedNearest? frames time folded = some (nearest? frames time folded) ∧
    (nearest? frames time folded = none ↔ frames = []) ∧
    (∀ i, nearest? frames time folded = some i → i < frames.length) ∧
    (Ordered frames → 0 < time →
      (∃ f ∈ frames, time ≤ f.time ∧ isVisible folded f = true) →
      ∃ i f, nearest? frames time folded = some i ∧ frames[i]? = some f ∧
        IsNearest frames folded time f) := by
  refine ⟨checkedNearest?_eq frames time folded, ?_, ?_, ?_⟩
  · constructor
    · intro nowhere
      by_contra some
      obtain ⟨f, member⟩ := List.exists_mem_of_ne_nil frames some
      obtain ⟨i, found⟩ := exists_nearest? member time folded
      rw [nowhere] at found
      cases found
    · rintro rfl
      rfl
  · intro i found
    obtain ⟨f, here⟩ := nearest?_valid found
    exact (List.getElem?_eq_some_iff.mp here).1
  · exact Ordered.nearest

/-- The frame at 14 is nearest but folded away; those at 10 and the one at 20 are equally near. -/
theorem tie_goes_to_the_side_before :
    let frames := [bare 0 1, bare 10 2, bare 10 5, bare 14 3, bare 20 4, bare 30 4]
    Ordered frames ∧ (0 : Micros) < 15 ∧
      (∃ f ∈ frames, (15 : Micros) ≤ f.time ∧ isVisible [3] f = true) ∧
      nearest? frames 15 [3] = some 2 ∧ IsNearest frames [3] 15 (bare 10 5) := by
  intro frames
  have ordered : Ordered frames := by decide
  have followed : ∃ f ∈ frames, (15 : Micros) ≤ f.time ∧ isVisible [3] f = true :=
    ⟨bare 20 4, by simp [frames], by decide, by decide⟩
  have found : nearest? frames 15 [3] = some 2 := by decide
  obtain ⟨-, -, -, optimal⟩ := nearest_frame_is_optimal frames 15 [3]
  obtain ⟨i, f, same, here, nearest⟩ := optimal ordered (by decide) followed
  rw [found, Option.some.injEq] at same
  subst same
  cases here
  exact ⟨ordered, by decide, followed, found, nearest⟩

end Walkthrough.Navigation
