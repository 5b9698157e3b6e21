import Mathlib.Data.List.Basic
import Walkthrough.Timeline.Navigation

/-! What is found among the frames of a run. The search for the nearest frame finds a visible one,
but for times that it answers with an end of the run. Where times strictly increase, a time is that
of one frame at most, and the search for it finds that frame, the nearest one only if it is
visible. -/

namespace Walkthrough.Navigation

variable {α : Type} {p : α → Bool} {items : List α}
variable {frames : List Frame} {folded : Lines} {time : Micros} {f g : Frame} {i j : Nat}

/-- A frame with a time and a line and nothing else to tell. -/
def bare (time : Micros) (line : Nat) : Frame :=
  { time, line, code := "", bindings := .empty, ending := .success "" none .leaveLoop }

theorem findIdx?_holds (found : items.findIdx? p = some i) :
    ∃ a, items[i]? = some a ∧ p a = true := by
  obtain ⟨bound, holds, -⟩ := List.findIdx?_eq_some_iff_getElem.mp found
  exact ⟨items[i], List.getElem?_eq_getElem bound, holds⟩

theorem findIdx?_le {a : α} (found : items.findIdx? p = some i) (here : items[j]? = some a)
    (holds : p a = true) : i ≤ j := by
  obtain ⟨_, _, first⟩ := List.findIdx?_eq_some_iff_getElem.mp found
  obtain ⟨_, rfl⟩ := List.getElem?_eq_some_iff.mp here
  by_contra earlier
  exact first j (Nat.lt_of_not_le earlier) holds

theorem lastIndex?_holds (found : lastIndex? p items = some i) :
    ∃ a, items[i]? = some a ∧ p a = true := by
  induction items generalizing i with
  | nil => cases found
  | cons first rest ih =>
      unfold lastIndex? at found
      cases later : lastIndex? p rest with
      | some k =>
          rw [later] at found
          cases found
          exact ih later
      | none =>
          simp only [later, Option.ite_none_right_eq_some, Option.some.injEq] at found
          obtain ⟨holds, rfl⟩ := found
          exact ⟨first, rfl, holds⟩

theorem lastIndex?_eq (p : α → Bool) (items : List α) :
    lastIndex? p items = (items.findIdxs p).getLast? := by
  induction items with
  | nil => rfl
  | cons first rest ih =>
      have moved : (rest.findIdxs p (0 + 1)).getLast? = (rest.findIdxs p).getLast?.map (· + 1) := by
        rw [List.findIdxs_start, List.getLast?_map]
      rw [lastIndex?, ih, List.findIdxs_cons]
      cases last : (rest.findIdxs p).getLast? with
      | none =>
          rw [last, Option.map_none] at moved
          dsimp only
          split
          · rw [List.getLast?_cons, moved]
            rfl
          · exact moved.symm
      | some k =>
          rw [last, Option.map_some] at moved
          dsimp only
          split
          · rw [List.getLast?_cons, moved]
            rfl
          · exact moved.symm

theorem lastIndex?_eq_none (none : lastIndex? p items = none) : ∀ a ∈ items, p a = false := by
  rw [lastIndex?_eq, List.getLast?_eq_none_iff] at none
  exact List.findIdxs_eq_nil_iff.mp none

theorem le_lastIndex? {a : α} (found : lastIndex? p items = some i) (here : items[j]? = some a)
    (holds : p a = true) : j ≤ i := by
  rw [lastIndex?_eq] at found
  obtain ⟨bound, rfl⟩ := List.getElem?_eq_some_iff.mp here
  have member : j ∈ items.findIdxs p := (List.mem_findIdxs_iff_pos_getElem bound).mpr holds
  have ordered : (items.findIdxs p).Pairwise (· < ·) := List.pairwise_findIdxs
  obtain ⟨front, split⟩ := List.getLast?_eq_some_iff.mp found
  rw [split] at member ordered
  rcases List.mem_append.mp member with earlier | same
  · exact Nat.le_of_lt ((List.pairwise_append.mp ordered).2.2 j earlier i List.mem_cons_self)
  · exact Nat.le_of_eq (List.mem_singleton.mp same)

theorem firstAfter?_holds {q : Frame → Bool} (found : firstAfter? frames time q = some i) :
    ∃ f, frames[i]? = some f ∧ time < f.time ∧ q f = true := by
  obtain ⟨f, here, holds⟩ := findIdx?_holds found
  exact ⟨f, here, by simpa using holds⟩

theorem lastBefore?_holds {q : Frame → Bool} (found : lastBefore? frames time q = some i) :
    ∃ f, frames[i]? = some f ∧ f.time < time ∧ q f = true := by
  obtain ⟨f, here, holds⟩ := lastIndex?_holds found
  exact ⟨f, here, by simpa using holds⟩

theorem isVisible_of_isStop {breakpoints : Lines} (stop : isStop breakpoints folded f = true) :
    isVisible folded f = true :=
  (Bool.and_eq_true_iff.mp stop).2

/-! ### The nearest frame -/

theorem exists_nearest? (member : f ∈ frames) (time : Micros) (folded : Lines) :
    ∃ i, nearest? frames time folded = some i := by
  obtain ⟨last, final⟩ : ∃ last, frames.getLast? = some last :=
    ⟨_, List.getLast?_eq_some_getLast (List.ne_nil_of_mem member)⟩
  unfold nearest?
  simp only [final]
  split
  · exact ⟨_, rfl⟩
  · split
    · exact ⟨_, rfl⟩
    · split
      · exact ⟨_, rfl⟩
      · split <;> exact ⟨_, rfl⟩

/-- The first visible frame that is not before the time, or the visible frame that precedes it if
that one is no further away. Time 0 and times that no visible frame follows have answers of their
own. -/
theorem nearest?_cases (found : nearest? frames time folded = some i) :
    (time = 0 ∧ i = 0) ∨
    (∃ last, frames.getLast? = some last ∧ i = frames.length - 1 ∧
      (last.time < time ∨ ∀ f ∈ frames, time ≤ f.time → isVisible folded f = false)) ∨
    ∃ after, frames.findIdx? (fun f => time ≤ f.time && isVisible folded f) = some after ∧
      (i = after ∨ ∃ f, frames[i]? = some f ∧ isVisible folded f = true ∧ i < after ∧
        time - f.time ≤ timeAt frames after - time) := by
  unfold nearest? at found
  cases final : frames.getLast? with
  | none => simp [final] at found
  | some last =>
      simp only [final] at found
      split at found
      · next start =>
          cases found
          exact Or.inl ⟨start, rfl⟩
      · refine Or.inr ?_
        split at found
        · next past =>
            cases found
            exact Or.inl ⟨last, rfl, rfl, Or.inl past⟩
        · cases ahead : frames.findIdx? fun f => time ≤ f.time && isVisible folded f with
          | none =>
              simp only [ahead] at found
              cases found
              refine Or.inl ⟨last, rfl, rfl, Or.inr fun f member later => ?_⟩
              simpa [later] using List.findIdx?_eq_none_iff.mp ahead f member
          | some after =>
              refine Or.inr ⟨after, rfl, ?_⟩
              simp only [ahead] at found
              cases preceding : lastIndex? (isVisible folded) (frames.take after) with
              | none =>
                  simp only [preceding] at found
                  cases found
                  exact Or.inl rfl
              | some before =>
                  obtain ⟨f, taken, visible⟩ := lastIndex?_holds preceding
                  obtain ⟨earlier, here⟩ : before < after ∧ frames[before]? = some f := by
                    simpa [List.getElem?_take] using taken
                  simp only [preceding, nearer, timeAt, here, Option.map_some,
                    Option.getD_some] at found
                  split at found
                  · next close =>
                      cases found
                      exact Or.inr ⟨f, here, visible, earlier, close⟩
                  · cases found
                    exact Or.inl rfl

theorem nearest?_valid (found : nearest? frames time folded = some i) :
    ∃ f, frames[i]? = some f := by
  rcases nearest?_cases found with ⟨rfl, rfl⟩ | ⟨last, final, rfl, -⟩ | ⟨after, ahead, chosen⟩
  · cases frames with
    | nil => cases found
    | cons first rest => exact ⟨first, rfl⟩
  · exact ⟨last, by rw [← List.getLast?_eq_getElem?, final]⟩
  · rcases chosen with rfl | ⟨f, here, -⟩
    · obtain ⟨f, here, -⟩ := findIdx?_holds ahead
      exact ⟨f, here⟩
    · exact ⟨f, here⟩

/-- The end of a run that a time is answered with: the first frame if it is 0, and the last one if
it is past that. -/
def IsEnd (frames : List Frame) (time : Micros) (f : Frame) : Prop :=
  (time = 0 ∧ frames.head? = some f) ∨ (frames.getLast? = some f ∧ f.time < time)

/-- A time that some frame is not before, some visible frame is not before either. -/
def IsFollowed (frames : List Frame) (folded : Lines) (time : Micros) : Prop :=
  (∃ f ∈ frames, time ≤ f.time) → ∃ f ∈ frames, time ≤ f.time ∧ isVisible folded f = true

instance : Decidable (IsFollowed frames folded time) :=
  inferInstanceAs (Decidable (_ → _))

theorem nearest?_visible (found : nearest? frames time folded = some i) (here : frames[i]? = some f)
    (followed : IsFollowed frames folded time) :
    isVisible folded f = true ∨ IsEnd frames time f := by
  rcases nearest?_cases found with ⟨start, rfl⟩ | ⟨last, final, rfl, late⟩ | ⟨after, ahead, chosen⟩
  · refine Or.inr (Or.inl ⟨start, ?_⟩)
    rw [List.head?_eq_getElem?, here]
  · have past : last.time < time := by
      by_contra within
      obtain ⟨g, member, later, visible⟩ :=
        followed ⟨last, List.mem_of_getLast? final, UInt64.not_lt.mp within⟩
      have hidden := late.resolve_left within g member later
      simp [hidden] at visible
    rw [← List.getLast?_eq_getElem?, final, Option.some.injEq] at here
    subst here
    exact Or.inr (Or.inr ⟨final, past⟩)
  · rcases chosen with rfl | ⟨g, same, visible, -⟩
    · obtain ⟨g, same, holds⟩ := findIdx?_holds ahead
      cases here.symm.trans same
      exact Or.inl (Bool.and_eq_true_iff.mp holds).2
    · cases here.symm.trans same
      exact Or.inl visible

/-! ### Increasing times -/

def Increasing (frames : List Frame) : Prop :=
  frames.Pairwise fun f g => f.time < g.time

instance : Decidable (Increasing frames) :=
  inferInstanceAs (Decidable (List.Pairwise _ frames))

theorem Increasing.lt_iff (h : Increasing frames) (hf : frames[i]? = some f)
    (hg : frames[j]? = some g) : f.time < g.time ↔ i < j := by
  obtain ⟨hi, rfl⟩ := List.getElem?_eq_some_iff.mp hf
  obtain ⟨hj, rfl⟩ := List.getElem?_eq_some_iff.mp hg
  have ordered := List.pairwise_iff_getElem.mp h
  refine ⟨fun lt => ?_, fun lt => ordered i j hi hj lt⟩
  rcases Nat.lt_trichotomy i j with before | rfl | behind
  · exact before
  · exact absurd lt (UInt64.lt_irrefl _)
  · exact absurd (ordered j i hj hi behind) (UInt64.lt_asymm lt)

theorem Increasing.index_eq (h : Increasing frames) (hf : frames[i]? = some f)
    (hg : frames[j]? = some g) (same : f.time = g.time) : i = j := by
  have notBefore : ¬ i < j := fun lt => UInt64.ne_of_lt ((h.lt_iff hf hg).mpr lt) same
  have notBehind : ¬ j < i := fun lt => UInt64.ne_of_lt ((h.lt_iff hg hf).mpr lt) same.symm
  omega

theorem Increasing.findIdx?_time (h : Increasing frames) (hf : frames[i]? = some f) :
    (frames.findIdx? fun g => g.time == f.time) = some i := by
  cases found : frames.findIdx? fun g => g.time == f.time with
  | none => simpa using List.findIdx?_eq_none_iff.mp found f (List.mem_of_getElem? hf)
  | some j =>
      obtain ⟨g, hg, same⟩ := findIdx?_holds found
      rw [h.index_eq hg hf (beq_iff_eq.mp same)]

theorem Increasing.nearest?_time (h : Increasing frames) (hf : frames[i]? = some f)
    (visible : isVisible folded f = true) : nearest? frames f.time folded = some i := by
  have member := List.mem_of_getElem? hf
  have inside : i < frames.length := (List.getElem?_eq_some_iff.mp hf).1
  obtain ⟨k, found⟩ := exists_nearest? member f.time folded
  rw [found]
  rcases nearest?_cases found with ⟨start, rfl⟩ | ⟨last, final, rfl, late⟩ | ⟨after, ahead, chosen⟩
  · -- no frame is before time 0
    obtain ⟨first, head⟩ : ∃ first, frames[0]? = some first :=
      ⟨_, List.getElem?_eq_getElem (by omega)⟩
    have notBefore : ¬ first.time < f.time := by simp [start]
    rw [h.lt_iff head hf] at notBefore
    congr 1
    omega
  · -- the frame itself is neither past the last one nor hidden
    exfalso
    rcases late with past | hidden
    · rw [List.getLast?_eq_getElem?] at final
      rw [h.lt_iff final hf] at past
      omega
    · simp [hidden f member (UInt64.le_refl _)] at visible
  · obtain ⟨g, hg, holds⟩ := findIdx?_holds ahead
    have later : ¬ g.time < f.time := by simpa using (Bool.and_eq_true_iff.mp holds).1
    rw [h.lt_iff hg hf] at later
    have first : after ≤ i := findIdx?_le ahead hf (by simp [visible])
    obtain rfl : after = i := by omega
    rcases chosen with rfl | ⟨b, hb, -, earlier, close⟩
    · rfl
    · -- a frame before it is further away than it is from itself
      have before : b.time < f.time := (h.lt_iff hb hf).mpr earlier
      simp only [timeAt, hf, Option.map_some, Option.getD_some] at close
      rw [UInt64.sub_self, UInt64.le_iff_toNat_le, UInt64.toNat_zero,
        UInt64.toNat_sub_of_le _ _ (UInt64.le_of_lt before)] at close
      rw [UInt64.lt_iff_toNat_lt] at before
      omega

end Walkthrough.Navigation
