import Mathlib.Data.List.Sort
import Walkthrough.Proofs.Navigation

/-! Going from frame to frame. Where times strictly increase, the search for the next frame leads,
taken again and again, through all frames behind the first one that the search is for, in order, and
the search for the previous frame leads back the same way. -/

namespace Walkthrough.Navigation

variable {α : Type} {items : List α} {holds : α → Bool}
variable {frames : List Frame} {p : Frame → Bool} {step : Frame → Option Nat}
variable {time : Micros} {f g start : Frame} {i j k : Nat} {is js : List Nat}

/-- The frames that a step leads to when it is taken again and again, each time from the frame that
it led to before, until it leads nowhere. -/
inductive Visits (frames : List Frame) (step : Frame → Option Nat) : Frame → List Nat → Prop
  | stop {f : Frame} : step f = none → Visits frames step f []
  | go {f g : Frame} {i : Nat} {is : List Nat} : step f = some i → frames[i]? = some g →
      Visits frames step g is → Visits frames step f (i :: is)

theorem Visits.unique (h : Visits frames step f is) (h' : Visits frames step f js) : is = js := by
  induction h generalizing js with
  | stop nowhere =>
      cases h' with
      | stop _ => rfl
      | go found _ _ => cases nowhere.symm.trans found
  | go found here _ ih =>
      cases h' with
      | stop nowhere => cases nowhere.symm.trans found
      | go found' here' rest =>
          cases found.symm.trans found'
          cases here.symm.trans here'
          rw [ih rest]

/-- The way that a step takes from each frame, when its first frame is where the step leads and the
others are the way from there. -/
theorem visits_route (route : Frame → List Nat) (first : ∀ f, step f = (route f).head?)
    (others : ∀ f i is, route f = i :: is → ∃ g, frames[i]? = some g ∧ route g = is) (f : Frame) :
    Visits frames step f (route f) := by
  -- each step takes one frame off the way, from wherever it is taken
  induction way : route f generalizing f with
  | nil =>
      have leads := first f
      rw [way] at leads
      exact .stop leads
  | cons i is ih =>
      have leads := first f
      rw [way] at leads
      obtain ⟨g, here, same⟩ := others f i is way
      exact .go leads here (ih g same)

theorem findIdx?_eq (p : α → Bool) (items : List α) :
    items.findIdx? p = (items.findIdxs p).head? := by
  induction items with
  | nil => rfl
  | cons first rest ih =>
      rw [List.findIdx?_cons, List.findIdxs_cons, List.findIdxs_start, ih]
      split
      · rfl
      · exact List.head?_map.symm

theorem mem_findIdxs : i ∈ items.findIdxs holds ↔ ∃ a, items[i]? = some a ∧ holds a = true := by
  rw [List.mem_findIdxs_iff_exists_getElem_pos]
  constructor
  · rintro ⟨bound, held⟩
    exact ⟨_, List.getElem?_eq_getElem bound, held⟩
  · rintro ⟨a, here, held⟩
    obtain ⟨bound, rfl⟩ := List.getElem?_eq_some_iff.mp here
    exact ⟨bound, held⟩

theorem tail_eq {r : Nat → Nat → Prop} [Std.Antisymm r] [Std.Irrefl r]
    (sorted : (i :: is).Pairwise r) (sorted' : js.Pairwise r)
    (behind : ∀ j, j ∈ js ↔ j ∈ i :: is ∧ r i j) : js = is := by
  obtain ⟨above, rest⟩ := List.pairwise_cons.mp sorted
  apply sorted'.eq_of_mem_iff rest
  intro j
  rw [behind]
  constructor
  · rintro ⟨member, apart⟩
    rcases List.mem_cons.mp member with rfl | later
    · exact absurd apart (Std.Irrefl.irrefl j)
    · exact later
  · intro member
    exact ⟨List.mem_cons_of_mem i member, above j member⟩

/-! ### Later and earlier frames -/

/-- The frames after a time that a test holds of, in their order. -/
def later (frames : List Frame) (p : Frame → Bool) (time : Micros) : List Nat :=
  frames.findIdxs fun f => time < f.time && p f

/-- The frames before a time that a test holds of, in their order. -/
def earlier (frames : List Frame) (p : Frame → Bool) (time : Micros) : List Nat :=
  frames.findIdxs fun f => f.time < time && p f

theorem firstAfter?_eq : firstAfter? frames time p = (later frames p time).head? :=
  findIdx?_eq _ frames

theorem lastBefore?_eq : lastBefore? frames time p = (earlier frames p time).getLast? :=
  lastIndex?_eq _ frames

/-- A side on which times may be beyond others: a frame is beyond another in the run just when its
time is beyond the other's. -/
structure Places (frames : List Frame) (r : Micros → Micros → Bool) (s : Nat → Nat → Prop) :
    Prop where
  place {i j : Nat} {f g : Frame} : frames[i]? = some f → frames[j]? = some g →
    (r f.time g.time = true ↔ s i j)
  trans {t u v : Micros} : r t u = true → r u v = true → r t v = true

namespace Places

variable {r : Micros → Micros → Bool} {s : Nat → Nat → Prop}

theorem mem_beyond : i ∈ frames.findIdxs (fun f => r time f.time && p f) ↔
    ∃ f, frames[i]? = some f ∧ r time f.time = true ∧ p f = true := by
  simp only [mem_findIdxs, Bool.and_eq_true]

theorem beyond_eq [DecidableRel s] (places : Places frames r s) (here : frames[k]? = some start) :
    frames.findIdxs (fun f => r start.time f.time && p f) =
      (frames.findIdxs p).filter fun j => s k j := by
  apply List.pairwise_findIdxs.eq_of_mem_iff (List.pairwise_findIdxs.filter _)
  intro j
  rw [mem_beyond, List.mem_filter, mem_findIdxs, decide_eq_true_eq]
  constructor
  · rintro ⟨f, there, beyond, held⟩
    exact ⟨⟨f, there, held⟩, (places.place here there).mp beyond⟩
  · rintro ⟨⟨f, there, held⟩, beyond⟩
    exact ⟨f, there, (places.place here there).mpr beyond, held⟩

theorem beyond_step (places : Places frames r s)
    (member : i ∈ frames.findIdxs fun f => r time f.time && p f) :
    ∃ g, frames[i]? = some g ∧ ∀ j, j ∈ frames.findIdxs (fun f => r g.time f.time && p f) ↔
      j ∈ frames.findIdxs (fun f => r time f.time && p f) ∧ s i j := by
  obtain ⟨g, here, first, -⟩ := mem_beyond.mp member
  refine ⟨g, here, ?_⟩
  intro j
  rw [mem_beyond, mem_beyond]
  constructor
  · rintro ⟨f, there, beyond, held⟩
    exact ⟨⟨f, there, places.trans first beyond, held⟩, (places.place here there).mp beyond⟩
  · rintro ⟨⟨f, there, -, held⟩, beyond⟩
    exact ⟨f, there, (places.place here there).mpr beyond, held⟩

end Places

namespace Increasing

theorem placesLater (h : Increasing frames) :
    Places frames (fun t u => decide (t < u)) (· < ·) where
  place hf hg := by
    rw [decide_eq_true_eq]
    exact h.lt_iff hf hg
  trans first second := by
    rw [decide_eq_true_eq] at first second ⊢
    exact UInt64.lt_trans first second

theorem placesEarlier (h : Increasing frames) :
    Places frames (fun t u => decide (u < t)) (· > ·) where
  place hf hg := by
    rw [decide_eq_true_eq]
    exact h.lt_iff hg hf
  trans first second := by
    rw [decide_eq_true_eq] at first second ⊢
    exact UInt64.lt_trans second first

theorem later_eq (h : Increasing frames) (here : frames[k]? = some start) :
    later frames p start.time = (frames.findIdxs p).filter fun j => k < j :=
  h.placesLater.beyond_eq here

theorem earlier_eq (h : Increasing frames) (here : frames[k]? = some start) :
    earlier frames p start.time = (frames.findIdxs p).filter fun j => j < k :=
  h.placesEarlier.beyond_eq here

theorem later_of_cons (h : Increasing frames) (way : later frames p time = i :: is) :
    ∃ g, frames[i]? = some g ∧ later frames p g.time = is := by
  have sorted : (later frames p time).Pairwise (· < ·) := List.pairwise_findIdxs
  have first : i ∈ later frames p time := way ▸ List.mem_cons_self
  obtain ⟨g, here, rest⟩ := h.placesLater.beyond_step first
  refine ⟨g, here, tail_eq (way ▸ sorted) List.pairwise_findIdxs ?_⟩
  rw [← way]
  exact rest

theorem earlier_of_cons (h : Increasing frames) (way : (earlier frames p time).reverse = i :: is) :
    ∃ g, frames[i]? = some g ∧ (earlier frames p g.time).reverse = is := by
  have sorted (t : Micros) : (earlier frames p t).reverse.Pairwise (· > ·) :=
    List.pairwise_reverse.mpr List.pairwise_findIdxs
  have first : i ∈ earlier frames p time := List.mem_reverse.mp (way ▸ List.mem_cons_self)
  obtain ⟨g, here, rest⟩ := h.placesEarlier.beyond_step first
  refine ⟨g, here, tail_eq (way ▸ sorted time) (sorted g.time) ?_⟩
  intro j
  rw [← way, List.mem_reverse, List.mem_reverse]
  exact rest j

theorem visits_later (h : Increasing frames) (start : Frame) :
    Visits frames (fun f => firstAfter? frames f.time p) start (later frames p start.time) :=
  visits_route (fun f => later frames p f.time) (fun _ => firstAfter?_eq)
    (fun _ _ _ way => h.later_of_cons way) start

theorem visits_earlier (h : Increasing frames) (start : Frame) :
    Visits frames (fun f => lastBefore? frames f.time p) start
      (earlier frames p start.time).reverse :=
  visits_route (fun f => (earlier frames p f.time).reverse)
    (fun _ => lastBefore?_eq.trans List.head?_reverse.symm)
    (fun _ _ _ way => h.earlier_of_cons way) start

/-! ### There and back -/

/-- No frame that the search is for lies between a frame and the first one behind it. -/
theorem lastBefore?_firstAfter? (h : Increasing frames) (hf : frames[i]? = some f)
    (held : p f = true) (found : firstAfter? frames f.time p = some j)
    (hg : frames[j]? = some g) : lastBefore? frames g.time p = some i := by
  obtain ⟨g', hg', late, -⟩ := firstAfter?_holds found
  cases hg.symm.trans hg'
  cases back : lastBefore? frames g.time p with
  | none =>
      have missing := lastIndex?_eq_none back f (List.mem_of_getElem? hf)
      simp [late, held] at missing
  | some k =>
      -- the frame itself is a candidate on the way back, and one behind it would have come first
      obtain ⟨e, he, early, held'⟩ := lastBefore?_holds back
      have notBefore : i ≤ k := le_lastIndex? back hf (by simp [late, held])
      have notBehind : ¬ i < k := by
        intro between
        have behind := (h.lt_iff hf he).mpr between
        have first : j ≤ k := findIdx?_le found he (by simp [behind, held'])
        have inFront := (h.lt_iff he hg).mp early
        omega
      rw [Option.some.injEq]
      omega

theorem firstAfter?_lastBefore? (h : Increasing frames) (hf : frames[i]? = some f)
    (held : p f = true) (found : lastBefore? frames f.time p = some j)
    (hg : frames[j]? = some g) : firstAfter? frames g.time p = some i := by
  obtain ⟨g', hg', early, -⟩ := lastBefore?_holds found
  cases hg.symm.trans hg'
  cases back : firstAfter? frames g.time p with
  | none =>
      have missing := List.findIdx?_eq_none_iff.mp back f (List.mem_of_getElem? hf)
      simp [early, held] at missing
  | some k =>
      obtain ⟨e, he, late, held'⟩ := firstAfter?_holds back
      have notBehind : k ≤ i := findIdx?_le back hf (by simp [early, held])
      have notBefore : ¬ k < i := by
        intro between
        have inFront := (h.lt_iff he hf).mpr between
        have last : k ≤ j := le_lastIndex? found he (by simp [inFront, held'])
        have behind := (h.lt_iff hg he).mp late
        omega
      rw [Option.some.injEq]
      omega

end Increasing

/-- Two searches go through the frames that a test holds of, one forwards and one backwards: taken
again and again from any frame, in the run or not, each leads through all that lie on its side, one
after the other and each once, and then nowhere; from a frame that the test holds of, either undoes
the other. For a frame of the run, the later and the earlier ones are those behind it and in front
of it. -/
structure GoThrough (frames : List Frame) (p : Frame → Bool) (next previous : Frame → Option Nat) :
    Prop where
  forwards : ∀ start is, Visits frames next start is ↔ is = later frames p start.time
  backwards : ∀ start is, Visits frames previous start is ↔
    is = (earlier frames p start.time).reverse
  behind : ∀ k start, frames[k]? = some start →
    later frames p start.time = (frames.findIdxs p).filter fun j => k < j
  inFront : ∀ k start, frames[k]? = some start →
    earlier frames p start.time = (frames.findIdxs p).filter fun j => j < k
  back : ∀ i f j g, frames[i]? = some f → p f = true → next f = some j → frames[j]? = some g →
    previous g = some i
  forth : ∀ i f j g, frames[i]? = some f → p f = true → previous f = some j →
    frames[j]? = some g → next g = some i

theorem Increasing.goThrough (h : Increasing frames) (p : Frame → Bool) :
    GoThrough frames p (fun f => firstAfter? frames f.time p)
      (fun f => lastBefore? frames f.time p) where
  forwards := by
    intro start is
    constructor
    · intro visits
      exact visits.unique (h.visits_later start)
    · rintro rfl
      exact h.visits_later start
  backwards := by
    intro start is
    constructor
    · intro visits
      exact visits.unique (h.visits_earlier start)
    · rintro rfl
      exact h.visits_earlier start
  behind := fun _ _ here => h.later_eq here
  inFront := fun _ _ here => h.earlier_eq here
  back := fun _ _ _ _ hf held found hg => h.lastBefore?_firstAfter? hf held found hg
  forth := fun _ _ _ _ hf held found hg => h.firstAfter?_lastBefore? hf held found hg

/-- In a run whose times strictly increase, the steps to the next and the previous frame go through
the visible frames, and those to the next and the previous breakpoint through the visible frames on
lines with a breakpoint. -/
theorem steps_go_through_frames (frames : List Frame) (breakpoints folded : Lines)
    (increasing : Increasing frames) :
    GoThrough frames (isVisible folded) (fun f => next? frames f folded)
      (fun f => previous? frames f folded) ∧
    GoThrough frames (fun f => breakpoints.contains f.line && isVisible folded f)
      (fun f => nextBreakpoint? frames (some f) breakpoints folded)
      (fun f => previousBreakpoint? frames (some f) breakpoints folded) :=
  ⟨increasing.goThrough (isVisible folded), increasing.goThrough (isStop breakpoints folded)⟩

/-- From a folded frame, the steps lead past the other frame of its line. -/
theorem folded_line_is_stepped_over :
    let frames := [bare 0 1, bare 10 2, bare 20 3, bare 30 2, bare 40 4]
    Increasing frames ∧
      Visits frames (fun f => next? frames f [2]) (bare 10 2) [2, 4] ∧
      Visits frames (fun f => previousBreakpoint? frames (some f) [1, 2, 3] [2]) (bare 30 2)
        [2, 0] := by
  intro frames
  have increasing : Increasing frames := by decide
  obtain ⟨steps, jumps⟩ := steps_go_through_frames frames [1, 2, 3] [2] increasing
  exact ⟨increasing, (steps.forwards _ _).mpr (by decide), (jumps.backwards _ _).mpr (by decide)⟩

end Walkthrough.Navigation
