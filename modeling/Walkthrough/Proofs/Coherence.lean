import Walkthrough.Proofs.Tables
import Walkthrough.Session.Operation

/-! Sessions are coherent. A view repeats much of what follows from the results and from the frame
that is shown: the summaries of the tests, the line and the note of the frame, the frames that can
be gone to from it. Whatever is asked of a session, and in whatever order, its view repeats these
things rightly. -/

namespace Walkthrough

variable {τ : Type}

/-- What a result says, its clock apart. -/
def TestResult.face (r : TestResult τ) : TestSummary × List Frame :=
  (.ofResult r, r.frames)

namespace TestResults

theorem face_modifyClock (rs : TestResults τ) (slug : String) (f : Clock τ → Clock τ) :
    (rs.modifyClock slug f).map TestResult.face = rs.map TestResult.face := by
  unfold modifyClock
  induction rs with
  | nil => rfl
  | cons r rest ih =>
      unfold modify
      split
      · rfl
      · rw [List.map_cons, List.map_cons, ih]

theorem slugs_eq (rs : TestResults τ) :
    rs.map (·.slug) = (rs.map TestResult.face).map (·.1.slug) := by
  simp [TestResult.face, TestSummary.ofResult]

theorem summaries_eq (rs : TestResults τ) :
    rs.map TestSummary.ofResult = (rs.map TestResult.face).map (·.1) := by
  simp [TestResult.face]

theorem allPassed_eq (rs : TestResults τ) :
    rs.allPassed =
      (!(rs.map TestResult.face).isEmpty && (rs.map TestResult.face).all (·.1.passed)) := by
  simp [allPassed, TestResult.face, TestSummary.ofResult, Function.comp_def]

theorem frames_eq (rs : TestResults τ) (slug : String) :
    (rs.get? slug).map (·.frames) =
      ((rs.map TestResult.face).find? (·.1.slug == slug)).map (·.2) := by
  simp [get?, List.find?_map, TestResult.face, TestSummary.ofResult, Function.comp_def]

theorem slug_mem_of_get? {rs : TestResults τ} {slug : String} {r : TestResult τ}
    (found : rs.get? slug = some r) : slug ∈ rs.map (·.slug) := by
  have same : r.slug = slug := by simpa using List.find?_some found
  exact List.mem_map.mpr ⟨r, List.mem_of_find?_eq_some found, same⟩

end TestResults

/-- What is told about a frame, whether it is to be seen or not; of no frame, nothing. -/
def Note.ofFrame : Option Frame → Note
  | some frame => { line := frame.line, isFailure := frame.isFailure, html := frame.description }
  | none => {}

namespace Draft

def frame? (d : Draft τ) : Option Frame :=
  d.view.currentFrame.bind fun i => d.frames[i]?

/-- The tests are those of the results, and what is shown is in them; `ran` says whether there have
been any results. -/
structure Placed (ran : Bool) (d : Draft τ) : Prop where
  test : ∀ slug, d.view.currentTest = some slug → slug ∈ d.results.map (·.slug)
  frame : ∀ i, d.view.currentFrame = some i → i < d.frames.length
  line : d.view.highlightedLine = (d.frame?.map (·.line)).getD 0
  note : { d.view.note with visible := false } = Note.ofFrame d.frame?
  times : ∀ slug time, d.view.savedTimes.get? slug = some time → slug ∈ d.results.map (·.slug)
  tests : d.view.tests = d.results.map .ofResult
  status : d.view.status =
    if ran then (if d.results.allPassed then .success else .failure) else .idle

/-- The frames that can be gone to are those found from the frame that is shown, with the lines
folded and the breakpoints set that are so now. -/
structure Navigated (d : Draft τ) : Prop where
  previous : d.view.previousFrame =
    d.frame?.bind fun f => Navigation.previous? d.frames f d.view.foldedLines
  next : d.view.nextFrame = d.frame?.bind fun f => Navigation.next? d.frames f d.view.foldedLines
  previousBreakpoint : d.view.previousBreakpoint =
    Navigation.previousBreakpoint? d.frames d.frame? d.view.breakpoints d.view.foldedLines
  nextBreakpoint : d.view.nextBreakpoint =
    Navigation.nextBreakpoint? d.frames d.frame? d.view.breakpoints d.view.foldedLines

/-- The test that is shown is left, if it is left now, at the current time. -/
def Timed (d : Draft τ) : Prop :=
  ∀ slug, d.view.currentTest = some slug → d.view.savedTimes.get? slug = some d.view.currentTime

/-- The view says of the results and of the frame that is shown what is so. -/
structure Coherent (ran : Bool) (d : Draft τ) : Prop where
  placed : d.Placed ran
  navigated : d.Navigated
  timed : d.Timed

end Draft

/-- The view as far as it is about results. -/
def View.shown (v : View) : View :=
  { v with
    exerciseSlug := none
    code := ""
    language := .jikiScript
    isPlaying := false
    playsOnTestChange := false
    isCodeEdited := false
    hasEverPassed := false
    wasSuccessShown := false
    isSpotlightOn := false
    note := { v.note with visible := false }
    taskProgress := []
    completedTasks := []
    currentTask := none }

namespace Draft

variable {ran : Bool} {d d' : Draft τ}

/-- The drafts differ in clocks and in what is not about results, if at all. -/
structure Alike (d d' : Draft τ) : Prop where
  view : d'.view.shown = d.view.shown
  faces : d'.results.map TestResult.face = d.results.map TestResult.face

theorem alike_modifyClock (d : Draft τ) (f : Clock τ → Clock τ) : d.Alike (d.modifyClock f) := by
  unfold modifyClock
  split
  · exact ⟨rfl, d.results.face_modifyClock _ f⟩
  · exact ⟨rfl, rfl⟩

theorem Alike.trans {d'' : Draft τ} (first : d.Alike d') (second : d'.Alike d'') : d.Alike d'' :=
  ⟨second.view.trans first.view, second.faces.trans first.faces⟩

theorem frames_eq_faces (d : Draft τ) :
    d.frames = ((d.view.currentTest.bind fun slug =>
      ((d.results.map TestResult.face).find? (·.1.slug == slug)).map (·.2)).getD []) := by
  unfold frames
  cases d.view.currentTest with
  | none => rfl
  | some slug =>
      rw [Option.bind_some, Option.bind_some, ← TestResults.frames_eq]
      cases d.results.get? slug <;> rfl

theorem Alike.field {α : Type} (alike : d.Alike d') (field : View → α) :
    field d'.view.shown = field d.view.shown :=
  congrArg field alike.view

theorem Alike.frames (alike : d.Alike d') : d'.frames = d.frames := by
  have test : d'.view.currentTest = d.view.currentTest := alike.field View.currentTest
  rw [frames_eq_faces, frames_eq_faces, alike.faces, test]

theorem Alike.frame (alike : d.Alike d') : d'.frame? = d.frame? := by
  have index : d'.view.currentFrame = d.view.currentFrame := alike.field View.currentFrame
  rw [frame?, frame?, index, alike.frames]

theorem Alike.slugs (alike : d.Alike d') : d'.results.map (·.slug) = d.results.map (·.slug) := by
  rw [TestResults.slugs_eq, TestResults.slugs_eq, alike.faces]

theorem Alike.placed (alike : d.Alike d') (h : d.Placed ran) : d'.Placed ran := by
  have test : d'.view.currentTest = d.view.currentTest := alike.field View.currentTest
  have index : d'.view.currentFrame = d.view.currentFrame := alike.field View.currentFrame
  have times : d'.view.savedTimes = d.view.savedTimes := alike.field View.savedTimes
  constructor
  · rw [test, alike.slugs]
    exact h.test
  · rw [index, alike.frames]
    exact h.frame
  · rw [alike.frame]
    exact (alike.field View.highlightedLine).trans h.line
  · rw [alike.frame]
    exact (alike.field View.note).trans h.note
  · rw [times, alike.slugs]
    exact h.times
  · rw [TestResults.summaries_eq, alike.faces, ← TestResults.summaries_eq]
    exact (alike.field View.tests).trans h.tests
  · rw [TestResults.allPassed_eq, alike.faces, ← TestResults.allPassed_eq]
    exact (alike.field View.status).trans h.status

theorem Alike.navigated (alike : d.Alike d') (h : d.Navigated) : d'.Navigated := by
  have folded : d'.view.foldedLines = d.view.foldedLines := alike.field View.foldedLines
  have stops : d'.view.breakpoints = d.view.breakpoints := alike.field View.breakpoints
  constructor
  · rw [alike.frame, alike.frames, folded]
    exact (alike.field View.previousFrame).trans h.previous
  · rw [alike.frame, alike.frames, folded]
    exact (alike.field View.nextFrame).trans h.next
  · rw [alike.frame, alike.frames, folded, stops]
    exact (alike.field View.previousBreakpoint).trans h.previousBreakpoint
  · rw [alike.frame, alike.frames, folded, stops]
    exact (alike.field View.nextBreakpoint).trans h.nextBreakpoint

theorem Alike.timed (alike : d.Alike d') (h : d.Timed) : d'.Timed := by
  have test : d'.view.currentTest = d.view.currentTest := alike.field View.currentTest
  have times : d'.view.savedTimes = d.view.savedTimes := alike.field View.savedTimes
  have time : d'.view.currentTime = d.view.currentTime := alike.field View.currentTime
  unfold Timed
  rw [test, times, time]
  exact h

theorem Alike.coherent (alike : d.Alike d') (h : d.Coherent ran) : d'.Coherent ran :=
  ⟨alike.placed h.placed, alike.navigated h.navigated, alike.timed h.timed⟩

theorem Placed.navigate (placed : d.Placed ran) (timed : d.Timed) :
    Coherent ran { d with view := d.view.withNavigation d.frames } where
  placed := ⟨placed.test, placed.frame, placed.line, placed.note, placed.times, placed.tests,
    placed.status⟩
  navigated := ⟨rfl, rfl, rfl, rfl⟩
  timed := timed

theorem Coherent.showFrame (h : d.Coherent ran) (index : Nat) :
    Coherent ran { d with view := d.view.withFrame d.frames index } := by
  unfold View.withFrame
  cases found : d.frames[index]? with
  | none => exact h
  | some frame =>
      obtain ⟨placed, -, timed⟩ := h
      let note := { d.view.note with
        line := frame.line, isFailure := frame.isFailure, html := frame.description }
      let chosen : Draft τ := { d with
        view := { d.view with currentFrame := some index, highlightedLine := frame.line, note } }
      have shows : chosen.frame? = some frame := found
      refine Placed.navigate (d := chosen) ⟨placed.test, ?_, ?_, ?_, placed.times, placed.tests,
        placed.status⟩ timed
      · intro i same
        cases same
        exact (List.getElem?_eq_some_iff.mp found).1
      · rw [shows]
        rfl
      · rw [shows]
        rfl

theorem Placed.goTo (placed : d.Placed ran) (navigated : d.Navigated) {time : Micros}
    {lookup : FrameLookup} {force : Bool} (gone : d.goTo? time lookup force = some d') :
    d'.Coherent ran := by
  unfold goTo? at gone
  cases shown : d.view.currentTest with
  | none =>
      rw [shown] at gone
      cases gone
  | some slug =>
      rw [shown] at gone
      dsimp only at gone
      split at gone
      · cases gone
      · let moved : Draft τ := { d with view := { d.view with
          currentTime := time, savedTimes := d.view.savedTimes.insert slug time } }
        have coherent : moved.Coherent ran := by
          refine ⟨⟨placed.test, placed.frame, placed.line, placed.note, ?_, placed.tests,
            placed.status⟩, ⟨navigated.previous, navigated.next, navigated.previousBreakpoint,
            navigated.nextBreakpoint⟩, ?_⟩
          · intro other at_ saved
            rw [Table.get?_insert] at saved
            split at saved
            · next same => exact same ▸ placed.test slug shown
            · exact placed.times other at_ saved
          · intro other same
            cases shown.symm.trans same
            exact (Table.get?_insert ..).trans (if_pos rfl)
        split at gone
        · next index _ =>
            cases gone
            exact coherent.showFrame index
        · cases gone
          exact coherent

theorem Coherent.goTo (h : d.Coherent ran) {time : Micros} {lookup : FrameLookup} {force : Bool}
    (gone : d.goTo? time lookup force = some d') : d'.Coherent ran :=
  h.placed.goTo h.navigated gone

theorem Coherent.goToIfAny (h : d.Coherent ran) (time : Micros) (lookup : FrameLookup)
    (force : Bool) : ((d.goTo? time lookup force).getD d).Coherent ran := by
  cases gone : d.goTo? time lookup force with
  | none => exact h
  | some d' => exact h.goTo gone

theorem Coherent.modifyClock (h : d.Coherent ran) (f : Clock τ → Clock τ) :
    (d.modifyClock f).Coherent ran :=
  (d.alike_modifyClock f).coherent h

theorem Coherent.stopPlaying (h : d.Coherent ran) : d.stopPlaying.Coherent ran := by
  have alike : d.Alike { d with view := { d.view with isPlaying := false } } := ⟨rfl, rfl⟩
  exact (alike.coherent h).modifyClock Clock.pause

theorem alike_detach (d : Draft τ) : d.Alike d.detach :=
  (d.alike_modifyClock fun c => c.clearMoves.clearEnd.pause).trans ⟨rfl, rfl⟩

theorem Placed.turnTo (placed : d.Placed ran) {slug : String}
    (known : slug ∈ d.results.map (·.slug)) :
    let turned : Draft τ := { d with
      view := { d.view with currentTest := some slug, isPlaying := false }.withoutFrame }
    turned.Placed ran ∧ turned.Navigated := by
  refine ⟨⟨?_, nofun, rfl, rfl, placed.times, placed.tests, placed.status⟩, rfl, rfl, rfl, rfl⟩
  intro other same
  cases same
  exact known

theorem Placed.begin (placed : d.Placed ran) (navigated : d.Navigated) {slug : String}
    (shown : d.view.currentTest = some slug) (time : Micros) (lookup : FrameLookup) :
    ((d.goTo? time lookup true).getD d).Coherent ran := by
  have forced : ∃ d', d.goTo? time lookup true = some d' := by
    unfold goTo?
    rw [shown]
    simp only [Bool.not_true, Bool.and_false, Bool.false_eq_true, if_false]
    split
    · exact ⟨_, rfl⟩
    · exact ⟨_, rfl⟩
  obtain ⟨d', gone⟩ := forced
  rw [gone]
  exact placed.goTo navigated gone

section Playback

variable [ClockTime τ]

theorem Coherent.startPlaying (h : d.Coherent ran) : d.startPlaying.Coherent ran := by
  unfold Draft.startPlaying
  split
  · exact h
  · dsimp only
    have again : (if (d.view.currentTest.bind d.results.get?).any (·.clock.completed) then
        (d.goTo? 0 .exact false).getD d else d).Coherent ran := by
      split
      · exact h.goToIfAny 0 .exact false
      · exact h
    refine Coherent.modifyClock (Alike.coherent ?_ again) Clock.play
    exact ⟨rfl, rfl⟩

theorem Coherent.showTest (h : d.Coherent ran) {slug : String}
    (shown : d.showTest? slug = some d') : d'.Coherent ran := by
  unfold showTest? at shown
  split at shown
  · cases shown
  · split at shown
    · cases shown
    · next result found =>
        -- the new test has no frame and no time yet; going to its time gives it both
        extract_lets left _ view start time clocked begun at shown
        have known : slug ∈ left.results.map (·.slug) := by
          rw [d.alike_detach.slugs]
          exact TestResults.slug_mem_of_get? found
        obtain ⟨placed, navigated⟩ := (d.alike_detach.placed h.placed).turnTo known
        have alike : Alike { left with view } clocked := alike_modifyClock _ _
        have coherent : begun.Coherent ran :=
          (alike.placed placed).begin (alike.navigated navigated)
            (alike.field View.currentTest) time .nearest
        cases shown
        split
        · exact coherent.startPlaying
        · exact coherent

theorem coherent_withResults (d : Draft τ) (results : TestResults τ) (autoPlay : Bool) :
    (d.withResults results autoPlay).Coherent true := by
  unfold withResults
  extract_lets left passed _ cleared view fresh
  have coherent : fresh.Coherent true :=
    ⟨⟨nofun, nofun, rfl, rfl, nofun, rfl, rfl⟩, ⟨rfl, rfl, rfl, rfl⟩, nofun⟩
  cases results.head? with
  | none => exact coherent
  | some first =>
      dsimp only
      cases shown : fresh.showTest? first.slug with
      | none => exact coherent
      | some d' => exact coherent.showTest shown

theorem Coherent.pause (h : d.Coherent ran) : d.pause.Coherent ran := by
  unfold Draft.pause
  extract_lets stopped _ kept nearest snapped _ note _
  have alike : stopped.Alike kept := ⟨rfl, rfl⟩
  have coherent : kept.Coherent ran := alike.coherent h.stopPlaying
  have moved : snapped.Coherent ran := by
    unfold snapped
    split
    · next frame _ =>
        exact (coherent.goToIfAny frame.time .exact true).modifyClock (·.seek frame.time)
    · exact coherent
  have told : snapped.Alike { snapped with view := { snapped.view with note } } := ⟨rfl, rfl⟩
  exact told.coherent moved

end Playback

end Draft

namespace Session

variable {ran : Bool} {s : Session τ}

def Coherent (ran : Bool) (s : Session τ) : Prop :=
  s.draft.Coherent ran

theorem view_commit (s : Session τ) (d : Draft τ) : (s.commit d).view = d.view := by
  change (s.store.commit d.view).value = d.view
  unfold Store.commit
  split
  · next same => exact same.symm
  · rfl

theorem draft_commit (s : Session τ) (d : Draft τ) : (s.commit d).draft = d := by
  unfold draft
  rw [view_commit]
  rfl

theorem coherent_commit {d : Draft τ} (h : d.Coherent ran) : (s.commit d).Coherent ran := by
  rw [Coherent, draft_commit]
  exact h

theorem Coherent.updateView (h : s.Coherent ran) {f : View → View}
    (same : (f s.view).shown = s.view.shown) : (s.updateView f).Coherent ran := by
  have alike : s.draft.Alike { s.draft with view := f s.view } := ⟨same, rfl⟩
  exact coherent_commit (alike.coherent h)

theorem alike_syncTasks (s : Session τ) (d : Draft τ) : d.Alike (s.syncTasks d) := by
  unfold syncTasks
  split
  · exact ⟨rfl, rfl⟩
  · exact ⟨rfl, rfl⟩

theorem Coherent.setCode (h : s.Coherent ran) (code : String) : (s.setCode code).Coherent ran := by
  refine h.updateView ?_
  split
  · rfl
  · rfl

theorem Coherent.setLines (h : s.Coherent ran) (breakpoints foldedLines : Lines) :
    (s.updateLines fun v => { v with breakpoints, foldedLines }).Coherent ran := by
  let lined : Draft τ := { s.draft with view := { s.view with breakpoints, foldedLines } }
  have placed : lined.Placed ran := ⟨h.placed.test, h.placed.frame, h.placed.line, h.placed.note,
    h.placed.times, h.placed.tests, h.placed.status⟩
  exact coherent_commit (placed.navigate h.timed)

theorem Coherent.setCurrentTask (h : s.Coherent ran) (id : String) :
    (s.setCurrentTask id).Coherent ran := by
  unfold Session.setCurrentTask
  split
  · exact coherent_commit ((alike_syncTasks _ _).coherent h)
  · exact h

theorem Coherent.completePlayback (h : s.Coherent ran) : s.completePlayback.Coherent ran := by
  have stopped := Draft.Coherent.stopPlaying h
  unfold Session.completePlayback
  extract_lets d _ view
  split
  · have alike : d.Alike { d with view } := ⟨rfl, rfl⟩
    exact coherent_commit (s := s) (alike.coherent stopped)
  · exact coherent_commit stopped

section Playback

variable [ClockTime τ]

theorem coherent_setResults (s : Session τ) (results : TestResults τ) :
    (s.setResults results).Coherent true :=
  coherent_commit (s.draft.coherent_withResults results s.autoPlay)

theorem coherent_runCode (s : Session τ) (now : Int) : (s.runCode now).Coherent true := by
  unfold runCode
  extract_lets running results
  exact coherent_commit ((alike_syncTasks _ _).coherent (Draft.coherent_withResults _ results _))

theorem Coherent.setCurrentTest (h : s.Coherent ran) (slug : String) :
    (s.setCurrentTest slug).Coherent ran := by
  unfold Session.setCurrentTest
  cases shown : s.draft.showTest? slug with
  | none => exact h
  | some d => exact coherent_commit (Draft.Coherent.showTest h shown)

theorem Coherent.setCurrentTime (h : s.Coherent ran) (time : Micros) (lookup : FrameLookup)
    (force : Bool) : (s.setCurrentTime time lookup force).Coherent ran := by
  unfold Session.setCurrentTime
  cases gone : s.draft.goTo? time lookup force with
  | none => exact h
  | some d => exact coherent_commit ((Draft.Coherent.goTo h gone).modifyClock (·.seek time))

theorem Coherent.setPlaying (h : s.Coherent ran) (playing : Bool) :
    (s.setPlaying playing).Coherent ran := by
  unfold Session.setPlaying
  split
  · exact coherent_commit (Draft.Coherent.startPlaying h)
  · exact coherent_commit (Draft.Coherent.stopPlaying h)

theorem Coherent.play (h : s.Coherent ran) : s.play.Coherent ran := by
  unfold Session.play
  split
  · exact h
  · exact h.setPlaying true

theorem Coherent.pause (h : s.Coherent ran) : s.pause.Coherent ran := by
  unfold Session.pause
  split
  · exact h
  · exact coherent_commit (Draft.Coherent.pause h)

theorem Coherent.handle (h : s.Coherent ran) (event : ClockEvent τ) :
    (s.handle event).Coherent ran := by
  cases event with
  | completed time => exact h.completePlayback
  | moved time =>
      unfold Session.handle
      dsimp only
      cases gone : s.draft.goTo? (ClockTime.toMicros time) .exact false with
      | none => exact h
      | some d => exact coherent_commit (Draft.Coherent.goTo h gone)

theorem Coherent.handleAll (h : s.Coherent ran) (events : List (ClockEvent τ)) :
    (events.foldl Session.handle s).Coherent ran := by
  induction events generalizing s with
  | nil => exact h
  | cons event rest ih => exact ih (h.handle event)

theorem Coherent.tick (h : s.Coherent ran) (elapsed : τ) : (s.tick elapsed).Coherent ran := by
  have advanced : (s.advanceClock elapsed).Coherent ran := by
    unfold advanceClock
    split
    · next result _ =>
        obtain ⟨clock, events⟩ := result.clock.advance (elapsed * s.speed)
        have faces := s.results.face_modifyClock result.slug fun _ => clock
        exact Draft.Alike.coherent (d := s.draft) ⟨rfl, faces⟩ h
    · exact h
  have alike : (s.advanceClock elapsed).draft.Alike
      { (s.advanceClock elapsed).draft with pending := [] } := ⟨rfl, rfl⟩
  exact Coherent.handleAll (s := { s.advanceClock elapsed with pending := [] })
    (alike.coherent advanced) _

theorem Coherent.goToFrame (h : s.Coherent ran) (index : Option Nat) :
    (s.goToFrame index).Coherent ran := by
  unfold Session.goToFrame
  split
  · next frame _ => exact h.setCurrentTime frame.time .exact false
  · exact h

def Operation.bringsResults : Operation τ → Bool
  | .runCode _ => true
  | .setResults _ => true
  | _ => false

/-- Whatever is asked of it, a coherent session stays coherent. -/
theorem Coherent.perform (h : s.Coherent ran) (op : Operation τ) :
    (s.perform op).Coherent (ran || op.bringsResults) := by
  have kept {s' : Session τ} (h : s'.Coherent ran) : s'.Coherent (ran || false) := by
    rw [Bool.or_false]
    exact h
  cases op with
  | runCode now =>
      rw [Operation.bringsResults, Bool.or_true]
      exact s.coherent_runCode now
  | setResults results =>
      rw [Operation.bringsResults, Bool.or_true]
      exact s.coherent_setResults results
  | setCode code => exact kept (h.setCode code)
  | setCurrentTest slug => exact kept (h.setCurrentTest slug)
  | setCurrentTime time lookup force => exact kept (h.setCurrentTime time lookup force)
  | setPlaying playing => exact kept (h.setPlaying playing)
  | play => exact kept h.play
  | pause => exact kept h.pause
  | tick elapsed => exact kept (h.tick elapsed)
  | setBreakpoints lines => exact kept (h.setLines lines s.view.foldedLines)
  | toggleBreakpoint line =>
      exact kept (h.setLines (s.view.breakpoints.toggle line) s.view.foldedLines)
  | setFoldedLines lines => exact kept (h.setLines s.view.breakpoints lines)
  | toggleFold line => exact kept (h.setLines s.view.breakpoints (s.view.foldedLines.toggle line))
  | goToNextFrame => exact kept (h.goToFrame s.view.nextFrame)
  | goToPreviousFrame => exact kept (h.goToFrame s.view.previousFrame)
  | goToNextBreakpoint => exact kept (h.goToFrame s.view.nextBreakpoint)
  | goToPreviousBreakpoint => exact kept (h.goToFrame s.view.previousBreakpoint)
  | setCurrentTask id => exact kept (h.setCurrentTask id)

/-- What can be chosen of a session before anything is asked of it. -/
inductive Choice (τ : Type) where
  | exercise (exercise : Exercise)
  | features (features : Features)
  | playback (autoPlay : Bool) (speed : τ)
  | watcher

def choose (s : Session τ) : Choice τ → Session τ
  | .exercise exercise => s.withExercise exercise
  | .features features => s.withFeatures features
  | .playback autoPlay speed => s.withPlayback autoPlay speed
  | .watcher => s.watch

theorem coherent_ofCode (language : Language) (code : String) :
    (ofCode language code : Session τ).Coherent false :=
  ⟨⟨nofun, nofun, rfl, rfl, nofun, rfl, rfl⟩, ⟨rfl, rfl, rfl, rfl⟩, nofun⟩

theorem Coherent.choose (h : s.Coherent ran) (choice : Choice τ) :
    (s.choose choice).Coherent ran := by
  cases choice with
  | features features => exact h
  | watcher => exact h
  | playback autoPlay speed =>
      exact Coherent.updateView (s := { s with autoPlay, speed := _ }) h rfl
  | exercise exercise =>
      have alike : s.draft.Alike { s.draft with
        view := { s.view with exerciseSlug := some exercise.slug } } := ⟨rfl, rfl⟩
      exact coherent_commit ((alike.trans (alike_syncTasks _ _)).coherent h)

/-- A session begun in whatever way is coherent after every sequence of operations, and its status
tells of results exactly when one of them has brought some. -/
theorem coherent_after (language : Language) (code : String) (choices : List (Choice τ))
    (ops : List (Operation τ)) :
    (ops.foldl perform (choices.foldl choose (ofCode language code))).Coherent
      (ops.any Operation.bringsResults) := by
  have begun : (choices.foldl choose (ofCode language code : Session τ)).Coherent false := by
    have first : (ofCode language code : Session τ).Coherent false := coherent_ofCode language code
    generalize (ofCode language code : Session τ) = s at first
    induction choices generalizing s with
    | nil => exact first
    | cons choice rest ih => exact ih _ (first.choose choice)
  suffices run : ∀ {ran} {s : Session τ}, s.Coherent ran →
      (ops.foldl perform s).Coherent (ran || ops.any Operation.bringsResults) by
    exact run begun
  induction ops with
  | nil =>
      intro ran s h
      rw [List.any_nil, Bool.or_false]
      exact h
  | cons op rest ih =>
      intro ran s h
      rw [List.any_cons, ← Bool.or_assoc]
      exact ih (h.perform op)

end Playback

end Session
end Walkthrough
