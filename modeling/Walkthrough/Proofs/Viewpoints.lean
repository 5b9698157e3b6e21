import Walkthrough.Proofs.Edits
import Walkthrough.Proofs.Navigation
import Walkthrough.Proofs.Playback

/-! The viewpoint of a session: the test that is shown, the time and the frame in it. Operations
leave it where it is, or take it to the frame that a time picks. A test that is turned to is shown
at the frame nearest to where it was left. -/

namespace Walkthrough

open Navigation

variable {τ : Type}

structure Viewpoint where
  frames : List Frame
  folded : Lines
  time : Micros
  frame : Option Nat

namespace Viewpoint

variable {p : Viewpoint} {time : Micros} {lookup : FrameLookup}

def shown? (p : Viewpoint) : Option Frame :=
  p.frame.bind fun i => p.frames[i]?

def pick (p : Viewpoint) (time : Micros) : FrameLookup → Option Nat
  | .nearest => nearest? p.frames time p.folded
  | .exact => p.frames.findIdx? fun f => f.time == time

/-- Where a time leads to; the frame stays if the time picks none. -/
def goTo (p : Viewpoint) (time : Micros) (lookup : FrameLookup) : Viewpoint :=
  { p with time, frame := (p.pick time lookup).or p.frame }

theorem pick_valid {i : Nat} (picked : p.pick time lookup = some i) :
    ∃ f, p.frames[i]? = some f := by
  cases lookup with
  | nearest => exact nearest?_valid picked
  | exact =>
      obtain ⟨f, here, -⟩ := findIdx?_holds picked
      exact ⟨f, here⟩

end Viewpoint

/-- The time at which a test is shown that is turned to: where it was left, or its first frame. -/
def View.resumeTime (v : View) (r : TestResult τ) : Micros :=
  (v.savedTimes.get? r.slug).getD ((r.frames.head?.map (·.time)).getD 0)

def View.opening (v : View) (r : TestResult τ) : Viewpoint :=
  Viewpoint.goTo ⟨r.frames, v.foldedLines, 0, none⟩ (v.resumeTime r) .nearest

theorem TestResults.slug_of_get? {rs : TestResults τ} {slug : String} {r : TestResult τ}
    (found : rs.get? slug = some r) : r.slug = slug := by
  simpa using List.find?_some found

theorem TestResults.get?_modifyClock_of_ne {slug other : String} (differs : other ≠ slug)
    (rs : TestResults τ) (f : Clock τ → Clock τ) :
    (rs.modifyClock slug f).get? other = rs.get? other := by
  unfold modifyClock get?
  induction rs with
  | nil => rfl
  | cons r rest ih =>
      unfold modify
      split
      · next here =>
          have apart : (r.slug == other) = false :=
            beq_eq_false_iff_ne.mpr fun same => differs (same.symm.trans (beq_iff_eq.mp here))
          simp only [List.find?_cons, apart]
      · rw [List.find?_cons, List.find?_cons, ih]

theorem TestResults.frames_of_faces {rs rs' : TestResults τ}
    (same : rs'.map TestResult.face = rs.map TestResult.face) (slug : String) :
    (rs'.get? slug).map (·.frames) = (rs.get? slug).map (·.frames) := by
  rw [frames_eq, frames_eq, same]

namespace Draft

variable {d d' : Draft τ} {slug : String} {time : Micros} {lookup : FrameLookup} {force : Bool}

def viewpoint (d : Draft τ) : Viewpoint :=
  ⟨d.frames, d.view.foldedLines, d.view.currentTime, d.view.currentFrame⟩

theorem Alike.viewpoint (alike : d.Alike d') : d'.viewpoint = d.viewpoint := by
  have folded : d'.view.foldedLines = d.view.foldedLines := alike.field View.foldedLines
  have time : d'.view.currentTime = d.view.currentTime := alike.field View.currentTime
  have frame : d'.view.currentFrame = d.view.currentFrame := alike.field View.currentFrame
  simp only [Draft.viewpoint, alike.frames, folded, time, frame]

theorem viewpoint_modifyClock (d : Draft τ) (f : Clock τ → Clock τ) :
    (d.modifyClock f).viewpoint = d.viewpoint :=
  (d.alike_modifyClock f).viewpoint

theorem frames_of_shown (shown : d.view.currentTest = some slug) :
    d.frames = ((d.results.get? slug).map (·.frames)).getD [] := by
  simp only [frames, shown, Option.bind_some]
  cases d.results.get? slug <;> rfl

theorem viewpoint_goTo (gone : d.goTo? time lookup force = some d') :
    d'.viewpoint = d.viewpoint.goTo time lookup := by
  unfold goTo? at gone
  split at gone
  · cases gone
  · next slug shown =>
      split at gone
      · cases gone
      · dsimp only at gone
        have same : View.pick { d.view with
            currentTime := time, savedTimes := d.view.savedTimes.insert slug time } d.frames time
            lookup = d.viewpoint.pick time lookup := by
          cases lookup <;> rfl
        rw [same] at gone
        cases picked : d.viewpoint.pick time lookup with
        | none =>
            rw [picked] at gone
            cases gone
            simp only [Viewpoint.goTo, picked, Option.none_or]
            rfl
        | some index =>
            obtain ⟨f, here⟩ := Viewpoint.pick_valid picked
            have found : d.frames[index]? = some f := here
            rw [picked] at gone
            cases gone
            simp only [Viewpoint.goTo, picked, Option.some_or, View.withFrame, found]
            rfl

theorem viewpoint_goTo_modifyClock (gone : d.goTo? time lookup force = some d')
    (f : Clock τ → Clock τ) : (d'.modifyClock f).viewpoint = d.viewpoint.goTo time lookup :=
  (viewpoint_modifyClock d' f).trans (viewpoint_goTo gone)

theorem goTo?_eq_none : d.goTo? time lookup force = none ↔
    d.view.currentTest = none ∨ d.view.currentTime = time ∧ force = false := by
  unfold goTo?
  cases d.view.currentTest with
  | none => simp
  | some slug =>
      dsimp only
      split
      · next stays => simpa using stays
      · next moves =>
          have elsewhere : ¬(d.view.currentTime = time ∧ force = false) := by simpa using moves
          split <;> simp [elsewhere]

theorem viewpoint_goToIfAny (d : Draft τ) (time : Micros) (lookup : FrameLookup) (force : Bool) :
    ((d.goTo? time lookup force).getD d).viewpoint = d.viewpoint ∨
      ((d.goTo? time lookup force).getD d).viewpoint = d.viewpoint.goTo time lookup := by
  cases gone : d.goTo? time lookup force with
  | none => exact Or.inl rfl
  | some d' => exact Or.inr (viewpoint_goTo gone)

theorem viewpoint_goToForced (shown : d.view.currentTest ≠ none) (time : Micros)
    (lookup : FrameLookup) :
    ((d.goTo? time lookup true).getD d).viewpoint = d.viewpoint.goTo time lookup := by
  cases gone : d.goTo? time lookup true with
  | none =>
      rcases goTo?_eq_none.mp gone with none | ⟨-, unforced⟩
      · exact absurd none shown
      · cases unforced
  | some d' => exact viewpoint_goTo gone

theorem playsOnTestChange_goToIfAny (d : Draft τ) (time : Micros) (lookup : FrameLookup)
    (force : Bool) : ((d.goTo? time lookup force).getD d).view.playsOnTestChange =
      d.view.playsOnTestChange := by
  cases gone : d.goTo? time lookup force with
  | none => rfl
  | some d' =>
      unfold goTo? at gone
      split at gone
      · cases gone
      · split at gone
        · cases gone
        · dsimp only at gone
          split at gone
          · cases gone
            dsimp only [Option.getD_some, View.withFrame]
            split <;> rfl
          · cases gone
            rfl

theorem shown_of_frame {i : Nat} {f : Frame} (here : d.frames[i]? = some f) :
    d.view.currentTest ≠ none := by
  intro none
  simp [frames, none] at here

theorem results_detach (other : d.view.currentTest ≠ some slug) :
    d.detach.results.get? slug = d.results.get? slug := by
  change (d.modifyClock fun c => c.clearMoves.clearEnd.pause).results.get? slug = _
  unfold modifyClock
  cases test : d.view.currentTest with
  | none => rfl
  | some shown =>
      have apart : slug ≠ shown := fun same => other (test.trans (congrArg some same.symm))
      dsimp only
      exact TestResults.get?_modifyClock_of_ne apart d.results _

section Playback

variable [ClockTime τ]

theorem viewpoint_startPlaying (d : Draft τ) : d.startPlaying.viewpoint = d.viewpoint ∨
    (∃ c, d.clock? = some c ∧ c.completed = true) ∧
      d.startPlaying.viewpoint = d.viewpoint.goTo 0 .exact := by
  unfold startPlaying
  split
  · exact Or.inl rfl
  · extract_lets isOver begun note
    rw [viewpoint_modifyClock]
    change begun.viewpoint = d.viewpoint ∨ _ ∧ begun.viewpoint = d.viewpoint.goTo 0 .exact
    unfold begun
    split
    · next done =>
        obtain ⟨r, shown, ended⟩ := (Option.any_eq_true _ _).mp done
        have known : d.clock? = some r.clock := by
          unfold clock?
          rw [shown, Option.map_some]
        exact (d.viewpoint_goToIfAny 0 .exact false).imp_right fun again =>
          ⟨⟨r.clock, known, ended⟩, again⟩
    · exact Or.inl rfl

/-- A test that is turned to opens where it was left; if it had ended there and is played, it starts
again. -/
theorem viewpoint_showTest (shown : d.showTest? slug = some d') :
    ∃ r, d.results.get? slug = some r ∧
      (d'.viewpoint = d.view.opening r ∨
        d.view.playsOnTestChange = true ∧ (r.clock.seek (d.view.resumeTime r)).completed = true ∧
          d'.viewpoint = (d.view.opening r).goTo 0 .exact) := by
  unfold showTest? at shown
  split at shown
  · cases shown
  · next other =>
    split at shown
    · cases shown
    · next r found =>
        refine ⟨r, found, ?_⟩
        extract_lets left _ view start time clocked begun at shown
        have alike : Alike { left with view } clocked := alike_modifyClock _ _
        have there : left.results.get? slug = some r := (results_detach other).trans found
        have cleared : clocked.viewpoint = ⟨r.frames, d.view.foldedLines, 0, none⟩ := by
          have frames : Draft.frames { left with view } = r.frames := by
            rw [frames_of_shown rfl, there]
            rfl
          have folded : left.view.foldedLines = d.view.foldedLines :=
            d.alike_detach.field View.foldedLines
          rw [alike.viewpoint, ← frames, ← folded]
          rfl
        have resumed : time = d.view.resumeTime r := by
          have saved : left.view.savedTimes = d.view.savedTimes :=
            d.alike_detach.field View.savedTimes
          change (left.view.savedTimes.get? slug).getD start = _
          rw [saved, ← TestResults.slug_of_get? found]
          rfl
        have opened : begun.viewpoint = d.view.opening r := by
          have test : clocked.view.currentTest = some slug := alike.field View.currentTest
          have known : clocked.view.currentTest ≠ none := by simp [test]
          rw [viewpoint_goToForced known, cleared, resumed]
          rfl
        have moved : clocked.Moved begun := moved_goToIfAny clocked time .nearest true
        have clock : begun.clock? = some ((r.clock.listenMoves.listenEnd).seek time) := by
          have here : Draft.clock? { left with view } = some r.clock := by
            change (left.results.get? slug).map (·.clock) = some r.clock
            rw [there, Option.map_some]
          rw [moved.clock?, clock?_modifyClock, here, Option.map_some]
        have plays : begun.view.playsOnTestChange = d.view.playsOnTestChange := by
          have kept : clocked.view = view := view_modifyClock _ _
          have before : left.view = d.view := view_modifyClock _ _
          refine (clocked.playsOnTestChange_goToIfAny time .nearest true).trans ?_
          rw [kept, ← before]
          rfl
        cases shown
        split
        · next playing =>
            rcases begun.viewpoint_startPlaying with same | ⟨⟨c, known, ended⟩, again⟩
            · exact Or.inl (same.trans opened)
            · refine Or.inr ⟨plays.symm.trans playing, ?_, opened ▸ again⟩
              rw [clock] at known
              cases known
              rw [← resumed]
              exact ended
        · exact Or.inl opened

theorem withResults_shows (d : Draft τ) (results : TestResults τ) (autoPlay : Bool) :
    (d.withResults results autoPlay).frames = [] ∨
      ∃ fresh slug, showTest? fresh slug = some (d.withResults results autoPlay) := by
  unfold withResults
  extract_lets left passed _ cleared view fresh
  cases results.head? with
  | none => exact Or.inl rfl
  | some first =>
      dsimp only
      cases shown : fresh.showTest? first.slug with
      | none => exact Or.inl rfl
      | some d' => exact Or.inr ⟨fresh, first.slug, shown⟩

theorem viewpoint_pause (d : Draft τ) :
    d.frames = [] ∧ d.pause.viewpoint = d.viewpoint ∨
    ∃ i f, nearest? d.frames d.view.currentTime d.view.foldedLines = some i ∧
      d.frames[i]? = some f ∧ d.pause.viewpoint = d.viewpoint.goTo f.time .exact := by
  unfold pause
  extract_lets stopped _ kept nearest snapped _ note _
  have same : kept.viewpoint = d.viewpoint := viewpoint_modifyClock _ _
  have frames : kept.frames = d.frames := congrArg Viewpoint.frames same
  have near : nearest = nearest? d.frames d.view.currentTime d.view.foldedLines := by
    have folded : kept.view.foldedLines = d.view.foldedLines := congrArg Viewpoint.folded same
    have time : kept.view.currentTime = d.view.currentTime := congrArg Viewpoint.time same
    unfold nearest
    rw [frames, folded, time]
  suffices moved : d.frames = [] ∧ snapped.viewpoint = d.viewpoint ∨
      ∃ i f, nearest? d.frames d.view.currentTime d.view.foldedLines = some i ∧
        d.frames[i]? = some f ∧ snapped.viewpoint = d.viewpoint.goTo f.time .exact from moved
  unfold snapped
  rw [near, frames]
  cases found : nearest? d.frames d.view.currentTime d.view.foldedLines with
  | none =>
      refine Or.inl ⟨List.eq_nil_iff_forall_not_mem.mpr fun f member => ?_, same⟩
      obtain ⟨i, some⟩ := exists_nearest? member d.view.currentTime d.view.foldedLines
      cases found.symm.trans some
  | some i =>
      obtain ⟨f, here⟩ := nearest?_valid found
      have shown : kept.view.currentTest ≠ none := shown_of_frame (frames ▸ here)
      refine Or.inr ⟨i, f, rfl, here, ?_⟩
      simp only [Option.bind_some, here]
      rw [viewpoint_modifyClock, viewpoint_goToForced shown, same]

end Playback

end Draft

namespace Session

variable {ran : Bool} {s : Session τ} {op : Operation τ} {i : Nat}

def viewpoint (s : Session τ) : Viewpoint :=
  s.draft.viewpoint

theorem viewpoint_commit (s : Session τ) (d : Draft τ) : (s.commit d).viewpoint = d.viewpoint := by
  rw [viewpoint, draft_commit]

theorem viewpoint_updateView {f : View → View} (same : (f s.view).shown = s.view.shown) :
    (s.updateView f).viewpoint = s.viewpoint := by
  have alike : s.draft.Alike { s.draft with view := f s.view } := ⟨same, rfl⟩
  rw [updateView, viewpoint_commit]
  exact alike.viewpoint

theorem viewpoint_setCurrentTask (s : Session τ) (id : String) :
    (s.setCurrentTask id).viewpoint = s.viewpoint := by
  unfold setCurrentTask
  split
  · next book _ =>
      rw [viewpoint_commit]
      exact (alike_syncTasks { s with tasks := some book } s.draft).viewpoint
  · rfl

theorem viewpoint_completePlayback (s : Session τ) :
    s.completePlayback.viewpoint = s.viewpoint := by
  have stopped : s.draft.stopPlaying.viewpoint = s.viewpoint := Draft.viewpoint_modifyClock _ _
  unfold completePlayback
  extract_lets d _ view
  split
  · exact (s.viewpoint_commit { d with view }).trans stopped
  · exact (s.viewpoint_commit d).trans stopped

/-- A step is offered from the frame that is shown, to a visible frame of another time. -/
theorem Coherent.offered (h : s.Coherent ran) (offered : s.offered? op = some i) :
    ∃ c f, s.currentFrame? = some c ∧ s.frames[i]? = some f ∧ f.time ≠ c.time ∧
      isVisible s.view.foldedLines f = true := by
  obtain ⟨previous, next, previousBreakpoint, nextBreakpoint⟩ := h.navigated
  cases op with
  | goToNextFrame =>
      obtain ⟨c, shown, found⟩ := Option.bind_eq_some_iff.mp (next.symm.trans offered)
      obtain ⟨f, here, later, visible⟩ := firstAfter?_holds found
      exact ⟨c, f, shown, here, (UInt64.ne_of_lt later).symm, visible⟩
  | goToPreviousFrame =>
      obtain ⟨c, shown, found⟩ := Option.bind_eq_some_iff.mp (previous.symm.trans offered)
      obtain ⟨f, here, earlier, visible⟩ := lastBefore?_holds found
      exact ⟨c, f, shown, here, UInt64.ne_of_lt earlier, visible⟩
  | goToNextBreakpoint =>
      obtain ⟨c, shown, found⟩ := Option.bind_eq_some_iff.mp (nextBreakpoint.symm.trans offered)
      obtain ⟨f, here, later, stop⟩ := firstAfter?_holds found
      exact ⟨c, f, shown, here, (UInt64.ne_of_lt later).symm, isVisible_of_isStop stop⟩
  | goToPreviousBreakpoint =>
      obtain ⟨c, shown, found⟩ := Option.bind_eq_some_iff.mp (previousBreakpoint.symm.trans offered)
      obtain ⟨f, here, earlier, stop⟩ := lastBefore?_holds found
      exact ⟨c, f, shown, here, UInt64.ne_of_lt earlier, isVisible_of_isStop stop⟩
  | _ => cases offered

section Playback

variable [ClockTime τ]

theorem setCurrentTime_same (lookup : FrameLookup) :
    s.setCurrentTime s.view.currentTime lookup false = s := by
  have stays : s.draft.goTo? s.view.currentTime lookup false = none :=
    Draft.goTo?_eq_none.mpr (Or.inr ⟨rfl, rfl⟩)
  simp only [setCurrentTime, stays]

theorem viewpoint_setCurrentTime_of_ne {time : Micros} (shown : s.view.currentTest ≠ none)
    (elsewhere : s.view.currentTime ≠ time) (lookup : FrameLookup) (force : Bool) :
    (s.setCurrentTime time lookup force).viewpoint = s.viewpoint.goTo time lookup := by
  unfold setCurrentTime
  cases gone : s.draft.goTo? time lookup force with
  | none =>
      rcases Draft.goTo?_eq_none.mp gone with none | ⟨same, -⟩
      · exact absurd none shown
      · exact absurd same elsewhere
  | some d =>
      rw [viewpoint_commit]
      exact Draft.viewpoint_goTo_modifyClock gone _

theorem viewpoint_setResults (s : Session τ) (results : TestResults τ) :
    (s.setResults results).viewpoint = (s.draft.withResults results s.autoPlay).viewpoint :=
  viewpoint_commit _ _

theorem viewpoint_runCode (s : Session τ) (now : Int) : ∃ (d : Draft τ) (results : TestResults τ),
    (s.runCode now).viewpoint = (d.withResults results s.autoPlay).viewpoint := by
  unfold runCode
  extract_lets running results
  have kept : (running.updateTasks results now).1.autoPlay = s.autoPlay := by
    unfold updateTasks
    split <;> rfl
  refine ⟨(running.updateTasks results now).1.draft, results, ?_⟩
  rw [← kept]
  exact (viewpoint_commit _ _).trans (alike_syncTasks _ _).viewpoint

theorem viewpoint_advanceClock (s : Session τ) (elapsed : τ) :
    (s.advanceClock elapsed).viewpoint = s.viewpoint := by
  unfold advanceClock
  split
  · next r _ =>
      obtain ⟨clock, events⟩ := r.clock.advance (elapsed * s.speed)
      have faces := s.results.face_modifyClock r.slug fun _ => clock
      exact Draft.Alike.viewpoint (d := s.draft) ⟨rfl, faces⟩
  · rfl

theorem viewpoint_handle (s : Session τ) (event : ClockEvent τ) :
    (s.handle event).viewpoint = s.viewpoint ∨
      ∃ time, (s.handle event).viewpoint = s.viewpoint.goTo time .exact := by
  cases event with
  | completed time => exact Or.inl s.viewpoint_completePlayback
  | moved time =>
      unfold handle
      dsimp only
      cases gone : s.draft.goTo? (ClockTime.toMicros time) .exact false with
      | none => exact Or.inl rfl
      | some d =>
          refine Or.inr ⟨ClockTime.toMicros time, ?_⟩
          rw [viewpoint_commit]
          exact Draft.viewpoint_goTo gone

theorem viewpoint_choose (s : Session τ) (choice : Choice τ) :
    (s.choose choice).viewpoint = s.viewpoint := by
  cases choice with
  | features features => rfl
  | watcher => rfl
  | playback autoPlay speed => exact viewpoint_updateView rfl
  | exercise exercise =>
      have alike : s.draft.Alike { s.draft with
        view := { s.view with exerciseSlug := some exercise.slug } } := ⟨rfl, rfl⟩
      exact (viewpoint_commit _ _).trans (alike.trans (alike_syncTasks _ _)).viewpoint

end Playback

end Session
end Walkthrough
