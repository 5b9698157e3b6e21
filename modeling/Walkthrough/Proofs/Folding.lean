import Walkthrough.Proofs.Viewpoints

/-! Folded lines are passed over. Where an operation looks for the nearest frame of a time, or goes
a step, it does not lead to a folded line, but for an end of the run that a time is answered with,
and for the start of a test that is played again. -/

namespace Walkthrough

open Navigation

variable {τ : Type} {f g : Frame}

/-- A folded frame that has the same time as a visible one. -/
def Navigation.IsTwin (frames : List Frame) (folded : Lines) (f : Frame) : Prop :=
  isVisible folded f = false ∧ ∃ g ∈ frames, g.time = f.time ∧ isVisible folded g = true

theorem Navigation.visible_of_not_twin {frames : List Frame} {folded : Lines}
    (single : ¬ IsTwin frames folded f) (member : g ∈ frames) (same : g.time = f.time)
    (visible : isVisible folded g = true) : isVisible folded f = true := by
  by_contra hidden
  exact single ⟨Bool.eq_false_iff.mpr hidden, g, member, same, visible⟩

namespace Viewpoint

variable {p p' : Viewpoint} {time : Micros} {i : Nat}

theorem shown_nearest (gone : p' = p.goTo time .nearest) (shown : p'.shown? = some f)
    (followed : IsFollowed p'.frames p'.folded time) :
    isVisible p'.folded f = true ∨ IsEnd p'.frames time f := by
  subst gone
  obtain ⟨k, chosen, here⟩ := Option.bind_eq_some_iff.mp shown
  obtain ⟨i, found⟩ := exists_nearest? (List.mem_of_getElem? here) time p.folded
  have picked : p.pick time .nearest = some i := found
  simp only [goTo, picked, Option.some_or, Option.some.injEq] at chosen
  subst chosen
  exact nearest?_visible found here followed

theorem shown?_goTo_exact (p : Viewpoint) (time : Micros) :
    (p.goTo time .exact).shown? = (p.frames.find? fun f => f.time == time).or p.shown? := by
  rw [List.find?_eq_bind_findIdx?_getElem?]
  cases picked : p.frames.findIdx? fun f => f.time == time with
  | none => simp only [shown?, goTo, pick, picked, Option.none_or, Option.bind_none]
  | some i =>
      obtain ⟨g, here, -⟩ := findIdx?_holds picked
      simp only [shown?, goTo, pick, picked, Option.some_or, Option.bind_some, here]

theorem shown_first (gone : p' = p.goTo g.time .exact) (member : g ∈ p.frames)
    (shown : p'.shown? = some f) :
    f.time = g.time ∧ p.frames.find? (fun h => h.time == g.time) = some f := by
  subst gone
  rw [shown?_goTo_exact] at shown
  cases found : p.frames.find? fun h => h.time == g.time with
  | none => simpa using List.find?_eq_none.mp found g member
  | some first =>
      rw [found, Option.some_or, Option.some.injEq] at shown
      subst shown
      exact ⟨by simpa using List.find?_some found, rfl⟩

end Viewpoint

open Viewpoint

namespace Session

variable {s : Session τ}

/-- The operation goes to a frame by the time of that frame. -/
def Operation.goesByTime : Operation τ → Bool
  | .pause => true
  | op => op.isStep

def Operation.avoidsFolds : Operation τ → Bool
  | .setCurrentTest _ => true
  | .setCurrentTime _ .nearest _ => true
  | op => op.goesByTime

/-- The time whose nearest frame the operation looks for. -/
def sought? (s : Session τ) : Operation τ → Option Micros
  | .setCurrentTest slug => (s.results.get? slug).map s.view.resumeTime
  | .setCurrentTime time .nearest _ => some time
  | .pause => some s.view.currentTime
  | _ => none

def location (s : Session τ) : Option String × Option Nat :=
  (s.view.currentTest, s.view.currentFrame)

variable {s' : Session τ} {op : Operation τ}

theorem goesByTime_of_isStep (step : op.isStep = true) : op.goesByTime = true := by
  cases op <;> first | rfl | cases step

theorem edits_of_avoidsFolds (avoids : op.avoidsFolds = true) : op.edits = true := by
  cases op <;> first | rfl | cases avoids

/-- A frame that is found by the time of a visible one is visible, unless it has that time and is
folded away. -/
theorem visible_of_goTo (gone : s'.viewpoint = s.viewpoint.goTo g.time .exact)
    (member : g ∈ s.frames) (shown : s'.currentFrame? = some f)
    (single : ¬ IsTwin s'.frames s'.view.foldedLines f)
    (visible : isVisible s.view.foldedLines g = true) :
    isVisible s'.view.foldedLines f = true := by
  have frames : s'.frames = s.frames := congrArg Viewpoint.frames gone
  have folded : s'.view.foldedLines = s.view.foldedLines := congrArg Viewpoint.folded gone
  obtain ⟨time, -⟩ := shown_first gone member shown
  rw [frames, folded] at single
  rw [folded]
  exact visible_of_not_twin single member time.symm visible

variable [ClockTime τ]

/-- What can be landed on. A pause goes by time, so it ends at the first frame of the time that it
finds. -/
inductive Landing (s s' : Session τ) (op : Operation τ) (f : Frame) : Prop
  | unfolded (visible : isVisible s'.view.foldedLines f = true)
  | atEnd (time : Micros) (sought : s.sought? op = some time) (goesOn : op ≠ .pause)
    (isEnd : IsEnd s'.frames time f)
  | pausedAtEnd (last : Frame) (paused : op = .pause)
    (isEnd : IsEnd s'.frames s.view.currentTime last)
    (first : s'.frames.find? (fun g => g.time == last.time) = some f)
  | restarted (slug : String) (r : TestResult τ) (turned : op = .setCurrentTest slug)
    (found : s.results.get? slug = some r) (plays : s.view.playsOnTestChange = true)
    (ended : (r.clock.seek (s.view.resumeTime r)).completed = true)
    (first : s'.frames.find? (fun g => g.time == 0) = some f)

theorem landing_goTo {time : Micros} {force : Bool}
    (gone : s'.viewpoint = s.viewpoint.goTo time .nearest) (shown : s'.currentFrame? = some f)
    (followed : IsFollowed s'.frames s'.view.foldedLines time) :
    s.Landing s' (.setCurrentTime time .nearest force) f := by
  rcases shown_nearest gone shown followed with visible | isEnd
  · exact .unfolded visible
  · exact .atEnd time rfl nofun isEnd

theorem landing_showTest {slug : String} {r : TestResult τ} (found : s.results.get? slug = some r)
    (opened : s'.viewpoint = s.view.opening r ∨
      s.view.playsOnTestChange = true ∧ (r.clock.seek (s.view.resumeTime r)).completed = true ∧
        s'.viewpoint = (s.view.opening r).goTo 0 .exact)
    (shown : s'.currentFrame? = some f)
    (followed : ∀ time, s.sought? (.setCurrentTest slug) = some time →
      IsFollowed s'.frames s'.view.foldedLines time) :
    s.Landing s' (.setCurrentTest slug) f := by
  have sought : s.sought? (.setCurrentTest slug) = some (s.view.resumeTime r) := by
    simp [sought?, found]
  have followed := followed _ sought
  rcases opened with opened | ⟨plays, ended, again⟩
  · rcases shown_nearest opened shown followed with visible | isEnd
    · exact .unfolded visible
    · exact .atEnd _ sought nofun isEnd
  · have frames : s'.frames = (s.view.opening r).frames := congrArg Viewpoint.frames again
    have folded : s'.view.foldedLines = (s.view.opening r).folded :=
      congrArg Viewpoint.folded again
    have here : ((s.view.opening r).frames.find? fun g => g.time == 0).or
        (s.view.opening r).shown? = some f := by
      rw [← shown?_goTo_exact, ← again]
      exact shown
    rcases Option.or_eq_some_iff.mp here with first | ⟨-, before⟩
    · exact .restarted slug r rfl found plays ended (frames ▸ first)
    · -- no frame has time 0, so the test stays where it was opened
      rw [frames, folded] at followed
      rcases shown_nearest rfl before followed with visible | isEnd
      · exact .unfolded (folded ▸ visible)
      · exact .atEnd _ sought nofun (frames ▸ isEnd)

theorem landing_pause {i : Nat}
    (near : nearest? s.frames s.view.currentTime s.view.foldedLines = some i)
    (here : s.frames[i]? = some g) (gone : s'.viewpoint = s.viewpoint.goTo g.time .exact)
    (shown : s'.currentFrame? = some f)
    (followed : IsFollowed s'.frames s'.view.foldedLines s.view.currentTime)
    (single : ¬ IsTwin s'.frames s'.view.foldedLines f) : s.Landing s' .pause f := by
  have frames : s'.frames = s.frames := congrArg Viewpoint.frames gone
  have folded : s'.view.foldedLines = s.view.foldedLines := congrArg Viewpoint.folded gone
  have member : g ∈ s.frames := List.mem_of_getElem? here
  rw [frames, folded] at followed
  rcases nearest?_visible near here followed with visible | isEnd
  · exact .unfolded (visible_of_goTo gone member shown single visible)
  · have first : s.frames.find? (fun h => h.time == g.time) = some f :=
      (shown_first gone member shown).2
    exact .pausedAtEnd g rfl (frames ▸ isEnd) (frames ▸ first)

theorem landing_step {ran : Bool} {i : Nat} (h : s.Coherent ran)
    (offered : s.offered? op = some i) (here : s.frames[i]? = some g)
    (gone : s'.viewpoint = s.viewpoint.goTo g.time .exact) (shown : s'.currentFrame? = some f)
    (single : ¬ IsTwin s'.frames s'.view.foldedLines f) : s.Landing s' op f := by
  obtain ⟨_, g', -, here', -, visible⟩ := h.offered offered
  cases here.symm.trans here'
  exact .unfolded (visible_of_goTo gone (List.mem_of_getElem? here) shown single visible)

/-- Whatever was asked before, an operation that is to pass over folded lines leads to another frame
only if that frame is not folded away, or is an end of the run that a time is answered with, or the
first frame at time 0 of a test that ends where it was left and is played again. Left open are times
that only folded frames follow, and frames found by a time that they share. -/
theorem folds_are_passed_over (language : Language) (code : String) (choices : List (Choice τ))
    (ops : List (Operation τ)) {op : Operation τ} {f : Frame} :
    let s := ops.foldl perform (choices.foldl choose (ofCode language code))
    let s' := s.perform op
    op.avoidsFolds = true → s'.currentFrame? = some f → s'.location ≠ s.location →
      (∀ time, s.sought? op = some time → IsFollowed s'.frames s'.view.foldedLines time) →
      (op.goesByTime = true → ¬ IsTwin s'.frames s'.view.foldedLines f) →
        s.Landing s' op f := by
  intro s s' avoids shown moved followed single
  have coherent : s.Coherent (ops.any Operation.bringsResults) :=
    coherent_after language code choices ops
  rcases perform_edit (edits_of_avoidsFolds avoids) with same | ⟨d, edit, committed⟩
  · exact absurd (congrArg location same) moved
  · have seen : s'.viewpoint = d.viewpoint :=
      (congrArg viewpoint committed).trans (viewpoint_commit s d)
    cases edit with
    | showTest found =>
        obtain ⟨r, known, opened⟩ := Draft.viewpoint_showTest found
        rw [← seen] at opened
        exact landing_showTest known opened shown followed
    | goTo gone =>
        have went := seen.trans (Draft.viewpoint_goTo_modifyClock gone _)
        rename_i lookup _ _
        cases lookup with
        | exact => cases avoids
        | nearest => exact landing_goTo went shown (followed _ rfl)
    | step offered here gone =>
        have went := seen.trans (Draft.viewpoint_goTo_modifyClock gone _)
        exact landing_step coherent offered here went shown
          (single (goesByTime_of_isStep (isStep_of_offered offered)))
    | pause =>
        rcases s.draft.viewpoint_pause with ⟨empty, same⟩ | ⟨i, g, near, here, gone⟩
        · have seen : s.viewpoint.shown? = some f :=
            (congrArg Viewpoint.shown? (seen.trans same)).symm.trans shown
          obtain ⟨k, -, here⟩ := Option.bind_eq_some_iff.mp seen
          have here : s.draft.frames[k]? = some f := here
          simp [empty] at here
        · exact landing_pause near here (seen.trans gone) shown (followed _ rfl) (single rfl)
    | setLines lines => cases op <;> first | (cases avoids; done) | cases lines
    | startPlaying plays => cases op <;> first | (cases avoids; done) | cases plays
    | setCode | stopPlaying => cases avoids

/-- A pause on a folded line leads to the nearest line that is not folded. -/
theorem pause_leaves_fold :
    let s : Session Float :=
      [.runCode 0, .setFoldedLines [2, 3], .setCurrentTime 2 .exact false].foldl perform
        (([] : List (Choice Float)).foldl choose
          (ofCode .jikiScript "set a to 1\nset b to 2\nset c to 3\nset d to 4"))
    s.pause.location ≠ s.location ∧
      IsFollowed s.pause.frames s.pause.view.foldedLines s.view.currentTime ∧
      ∃ f, s.pause.currentFrame? = some f ∧ f.line = 4 ∧ s.Landing s.pause .pause f := by
  intro s
  have moved : s.pause.location ≠ s.location := by decide +kernel
  have followed : IsFollowed s.pause.frames s.pause.view.foldedLines s.view.currentTime := by
    decide +kernel
  have fourth : s.pause.currentFrame?.any (fun f => f.line == 4 &&
      isVisible s.pause.view.foldedLines f) = true := by decide +kernel
  obtain ⟨f, shown, holds⟩ := (Option.any_eq_true _ _).mp fourth
  obtain ⟨line, visible⟩ := Bool.and_eq_true_iff.mp holds
  have single : ¬ IsTwin s.pause.frames s.pause.view.foldedLines f := by
    intro twin
    simp [twin.1] at visible
  have avoids : (Operation.pause : Operation Float).avoidsFolds = true := rfl
  have landed := folds_are_passed_over .jikiScript "set a to 1\nset b to 2\nset c to 3\nset d to 4"
    [] [.runCode 0, .setFoldedLines [2, 3], .setCurrentTime 2 .exact false] avoids shown moved
    (fun time sought => Option.some.inj sought ▸ followed) fun _ => single
  exact ⟨moved, followed, f, shown, beq_iff_eq.mp line, landed⟩

/-- A jump to the start leads to the first frame although it is folded away. -/
theorem jump_to_start_lands_on_fold :
    let s : Session Float :=
      [.runCode 0, .setCurrentTime 2 .exact false, .toggleFold 1].foldl perform
        ([.playback false 1].foldl choose (ofCode .jikiScript "set a to 1\nset b to 2\nset c to 3"))
    let s' := s.perform (.setCurrentTime 0 .nearest false)
    s.view.currentFrame = some 2 ∧ s'.view.currentFrame = some 0 ∧
      s'.currentFrame?.any (isVisible s'.view.foldedLines) = false ∧
      s'.frames.any (isVisible s'.view.foldedLines) = true := by
  decide +kernel

end Session
end Walkthrough
