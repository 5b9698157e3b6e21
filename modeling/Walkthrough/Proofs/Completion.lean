import Walkthrough.Proofs.Playback

/-! A tick that is as long as the run ends the playback, from whatever was asked of the session
before. Only a clock that was jumped to its end while its test was played stays where it is: it has
ended without telling anybody, and so the playback goes on for good. -/

namespace Walkthrough
namespace Session

variable {τ : Type} {s s' : Session τ}

/-- All tests have passed, and that was not celebrated yet. -/
def isDue (s : Session τ) : Bool :=
  s.view.allTestsPassed && !s.view.wasSuccessShown

/-- The second session is the first one with playback stopped, and with what was due celebrated. -/
structure Celebrated (s s' : Session τ) : Prop where
  stopped : s'.view.isPlaying = false
  tests : s'.view.tests = s.view.tests
  signals : s'.signals = s.signals ++ if s.isDue then [.exerciseSolved] else []
  shown : s'.view.wasSuccessShown = (s.view.wasSuccessShown || s.view.allTestsPassed)
  spotlight : s'.view.isSpotlightOn = (s.view.isSpotlightOn && !s.isDue)

/-- The clock of the test that is shown has ended, playback was stopped, and what was due was
celebrated. -/
structure Ended (s s' : Session τ) : Prop extends Celebrated s s' where
  completed : ∃ r, s'.currentResult? = some r ∧ r.clock.completed = true

theorem Celebrated.trans {s'' : Session τ} (first : s.Celebrated s') (second : s'.Celebrated s'') :
    s.Celebrated s'' := by
  have passed : s'.view.allTestsPassed = s.view.allTestsPassed := by
    unfold View.allTestsPassed
    rw [first.tests]
  have done : s'.isDue = false := by
    unfold isDue
    rw [first.shown, passed]
    cases s.view.wasSuccessShown <;> cases s.view.allTestsPassed <;> rfl
  refine ⟨second.stopped, second.tests.trans first.tests, ?_, ?_, ?_⟩
  · rw [second.signals, done, first.signals]
    exact List.append_nil _
  · rw [second.shown, passed, first.shown, Bool.or_assoc, Bool.or_self]
  · rw [second.spotlight, done, first.spotlight]
    exact Bool.and_true _

theorem celebrated_completePlayback (s : Session τ) : s.Celebrated s.completePlayback := by
  unfold completePlayback
  extract_lets d _ view
  have stopped : d.view = { s.view with isPlaying := false } := s.draft.view_stopPlaying
  have due : (d.view.allTestsPassed && !d.view.wasSuccessShown) = s.isDue := by
    rw [stopped]
    rfl
  rw [due]
  cases isDue : s.isDue with
  | true =>
      obtain ⟨passed, -⟩ := Bool.and_eq_true_iff.mp isDue
      have committed : ((s.commit { d with view }).signal [.exerciseSolved]).view = view :=
        view_commit s _
      have kept : view = { s.view with
          isPlaying := false, wasSuccessShown := true, isSpotlightOn := false } := by
        change { d.view with wasSuccessShown := true, isSpotlightOn := false } = _
        rw [stopped]
      refine ⟨?_, ?_, ?_, ?_, ?_⟩
      · rw [if_pos rfl, committed, kept]
      · rw [if_pos rfl, committed, kept]
      · rw [isDue]
        rfl
      · rw [if_pos rfl, committed, kept, passed, Bool.or_true]
      · rw [if_pos rfl, committed, kept, isDue, Bool.not_true, Bool.and_false]
  | false =>
      have shown : s.view.wasSuccessShown = (s.view.wasSuccessShown || s.view.allTestsPassed) := by
        unfold Session.isDue at isDue
        revert isDue
        cases s.view.wasSuccessShown <;> cases s.view.allTestsPassed <;> decide
      refine ⟨?_, ?_, ?_, ?_, ?_⟩
      · rw [if_neg Bool.false_ne_true, view_commit, stopped]
      · rw [if_neg Bool.false_ne_true, view_commit, stopped]
      · rw [isDue]
        exact (List.append_nil _).symm
      · rw [if_neg Bool.false_ne_true, view_commit, stopped]
        exact shown
      · rw [if_neg Bool.false_ne_true, view_commit, stopped, isDue, Bool.not_false, Bool.and_true]

theorem draft_completePlayback (s : Session τ) :
    ∃ view : View, s.completePlayback.draft = { s.draft.stopPlaying with view } ∧
      view.currentTest = s.view.currentTest ∧ view.isPlaying = false := by
  unfold completePlayback
  extract_lets d _ view
  have stopped : d.view = { s.view with isPlaying := false } := s.draft.view_stopPlaying
  have test : d.view.currentTest = s.view.currentTest := by rw [stopped]
  have playing : d.view.isPlaying = false := by rw [stopped]
  split
  · exact ⟨view, draft_commit s _, test, playing⟩
  · exact ⟨d.view, draft_commit s _, test, playing⟩

theorem clock?_completePlayback (s : Session τ) :
    s.completePlayback.draft.clock? = s.draft.clock?.map Clock.pause := by
  obtain ⟨view, draft, test, -⟩ := s.draft_completePlayback
  have kept : s.completePlayback.draft.clock? = s.draft.stopPlaying.clock? := by
    rw [draft]
    unfold Draft.clock?
    rw [test, Draft.view_stopPlaying]
    rfl
  rw [kept]
  exact Draft.clock?_modifyClock _ _

def HasEnded (s : Session τ) : Prop :=
  ∃ c, s.draft.clock? = some c ∧ c.completed = true

theorem HasEnded.completePlayback (h : s.HasEnded) : s.completePlayback.HasEnded := by
  obtain ⟨c, shown, completed⟩ := h
  refine ⟨c.pause, ?_, completed⟩
  rw [clock?_completePlayback, shown]
  rfl

theorem HasEnded.currentResult (h : s.HasEnded) :
    ∃ r, s.currentResult? = some r ∧ r.clock.completed = true := by
  obtain ⟨c, shown, completed⟩ := h
  obtain ⟨r, found, rfl⟩ := Option.map_eq_some_iff.mp shown
  exact ⟨r, found, completed⟩

def withClock (s : Session τ) (c : Clock τ) : Session τ :=
  { s with results := (s.draft.modifyClock fun _ => c).results }

theorem draft_withClock (s : Session τ) (c : Clock τ) :
    (s.withClock c).draft = s.draft.modifyClock fun _ => c := by
  unfold withClock draft Draft.modifyClock
  dsimp only
  split <;> rfl

theorem clock?_withClock {r : TestResult τ} (found : s.currentResult? = some r) (c : Clock τ) :
    (s.withClock c).draft.clock? = some c := by
  have shown : s.draft.clock? = some r.clock :=
    congrArg (Option.map fun r : TestResult τ => r.clock) found
  rw [draft_withClock, Draft.clock?_modifyClock, shown]
  rfl

theorem withClock_same {r : TestResult τ} (found : s.currentResult? = some r) :
    s.withClock r.clock = s := by
  obtain ⟨slug, test, got⟩ := Option.bind_eq_some_iff.mp found
  have results : (s.draft.modifyClock fun _ => r.clock).results = s.results := by
    unfold Draft.modifyClock draft
    rw [test]
    exact TestResults.modifyClock_same got
  unfold withClock
  rw [results]

/-! ### What clocks tell -/

/-- The sessions show different places at most. -/
structure Moved (s s' : Session τ) : Prop where
  draft : s.draft.Moved s'.draft
  signals : s'.signals = s.signals

theorem Moved.trans {s'' : Session τ} (first : s.Moved s') (second : s'.Moved s'') : s.Moved s'' :=
  ⟨first.draft.trans second.draft, second.signals.trans first.signals⟩

theorem Moved.hasEnded (moved : s.Moved s') (h : s.HasEnded) : s'.HasEnded := by
  unfold HasEnded
  rw [moved.draft.clock?]
  exact h

theorem Moved.celebrated {s'' : Session τ} (moved : s.Moved s') (h : s'.Celebrated s'') :
    s.Celebrated s'' := by
  have tests : s'.view.tests = s.view.tests := congrArg (·.2.2.1) moved.draft.playback
  have shown : s'.view.wasSuccessShown = s.view.wasSuccessShown :=
    congrArg (·.2.2.2.1) moved.draft.playback
  have spotlight : s'.view.isSpotlightOn = s.view.isSpotlightOn :=
    congrArg (·.2.2.2.2) moved.draft.playback
  have passed : s'.view.allTestsPassed = s.view.allTestsPassed := by
    unfold View.allTestsPassed
    rw [tests]
  have due : s'.isDue = s.isDue := by
    unfold isDue
    rw [passed, shown]
  refine ⟨h.stopped, h.tests.trans tests, ?_, ?_, ?_⟩
  · rw [h.signals, moved.signals, due]
  · rw [h.shown, shown, passed]
  · rw [h.spotlight, spotlight, due]

variable [ClockTime τ] {jumped : Bool}

theorem ready_completePlayback (h : s.draft.Heard) : s.completePlayback.Ready jumped := by
  obtain ⟨view, draft, -, stopped⟩ := s.draft_completePlayback
  have ready : s.draft.stopPlaying.Ready jumped := h.stopPlaying
  have clock := s.clock?_completePlayback
  unfold Ready
  rw [draft] at clock ⊢
  refine .of_stopped ⟨ready.clocks, ready.acted, ?_⟩ stopped
  rw [clock]
  intro c found
  obtain ⟨before, shown, rfl⟩ := Option.map_eq_some_iff.mp found
  exact h.listened before shown

theorem moved_handle (s : Session τ) (time : τ) : s.Moved (s.handle (.moved time)) := by
  unfold handle
  dsimp only
  cases gone : s.draft.goTo? (ClockTime.toMicros time) .exact false with
  | none => exact ⟨.refl _, rfl⟩
  | some d =>
      refine ⟨?_, rfl⟩
      rw [draft_commit]
      exact Draft.moved_goTo gone

theorem moved_handleAll (s : Session τ) (count : Nat) (time : τ) :
    s.Moved ((List.replicate count (.moved time)).foldl handle s) := by
  induction count generalizing s with
  | zero => exact ⟨.refl _, rfl⟩
  | succ count ih => exact (s.moved_handle time).trans (ih _)

/-- The news of the end stops playback and celebrates it; the same news again changes nothing of
that. -/
theorem completed_handleAll (h : s.draft.Heard) (ended : s.HasEnded) {count : Nat}
    (some : 0 < count) (time : τ) :
    let s' := (List.replicate count (.completed time)).foldl handle s
    s'.Ready jumped ∧ s'.HasEnded ∧ s.Celebrated s' := by
  induction count generalizing s with
  | zero => cases some
  | succ count ih =>
      have ready : s.completePlayback.Ready jumped := ready_completePlayback h
      have first := s.celebrated_completePlayback
      have still := ended.completePlayback
      cases count with
      | zero => exact ⟨ready, still, first⟩
      | succ count =>
          obtain ⟨ready', still', second⟩ := ih ready.toHeard still (Nat.succ_pos count)
          exact ⟨ready', still', first.trans second⟩

/-! ### Ticks -/

theorem tick_of_none (acted : s.pending = []) (shown : s.currentResult? = none) (elapsed : τ) :
    s.tick elapsed = s := by
  have still : s.advanceClock elapsed = s := by
    unfold advanceClock
    rw [shown]
  unfold tick
  dsimp only
  rw [still, acted, List.foldl_nil, ← acted]

theorem tick_eq (acted : s.pending = []) {r : TestResult τ} (found : s.currentResult? = some r)
    (elapsed : τ) : s.tick elapsed = (r.clock.advance (elapsed * s.speed)).2.foldl handle
      (s.withClock (r.clock.advance (elapsed * s.speed)).1) := by
  obtain ⟨slug, test, got⟩ := Option.bind_eq_some_iff.mp found
  have named : r.slug = slug := by simpa using List.find?_some got
  have moved (c : Clock τ) : s.results.modifyClock r.slug (fun _ => c) =
      (s.draft.modifyClock fun _ => c).results := by
    unfold Draft.modifyClock draft
    rw [test, named]
  have advanced : s.advanceClock elapsed =
      { s.withClock (r.clock.advance (elapsed * s.speed)).1 with
        pending := (r.clock.advance (elapsed * s.speed)).2 } := by
    unfold advanceClock withClock
    rw [found]
    dsimp only
    rw [moved, acted, List.nil_append]
  unfold tick
  dsimp only
  rw [advanced, ← acted]
  rfl

theorem ended_withClock (h : s.draft.Heard) {r : TestResult τ} (found : s.currentResult? = some r)
    {c : Clock τ} (sound : c.Sound) (completed : c.completed = true) {moves ends : Nat}
    (listened : 0 < c.endListeners) (told : 0 < ends) (time : τ) :
    let events : List (ClockEvent τ) :=
      List.replicate moves (.moved time) ++ List.replicate ends (.completed time)
    let s' := events.foldl handle (s.withClock c)
    s'.Ready jumped ∧ s.Ended s' := by
  intro events
  have heard : (s.withClock c).draft.Heard := by
    rw [draft_withClock]
    exact h.modifyClock (fun _ _ => sound) fun _ _ => listened
  have ended : (s.withClock c).HasEnded := ⟨c, clock?_withClock found c, completed⟩
  have moved := (s.withClock c).moved_handleAll moves time
  unfold events
  rw [List.foldl_append]
  obtain ⟨ready, still, celebrated⟩ :=
    completed_handleAll (moved.draft.heard heard) (moved.hasEnded ended) told time
  have since : (s.withClock c).Celebrated _ := moved.celebrated celebrated
  exact ⟨ready, ⟨since.stopped, since.tests, since.signals, since.shown, since.spotlight⟩,
    still.currentResult⟩

theorem tick_of_completed (acted : s.pending = []) {r : TestResult τ}
    (found : s.currentResult? = some r) (completed : r.clock.completed = true) (elapsed : τ) :
    s.tick elapsed = s := by
  have still : r.clock.advance (elapsed * s.speed) = (r.clock, []) := by
    unfold Clock.advance
    rw [completed, Bool.or_true, if_pos rfl]
  rw [tick_eq acted found, still]
  exact withClock_same found

theorem Ready.found (h : s.Ready jumped) {r : TestResult τ} (found : s.currentResult? = some r) :
    r.clock.Sound ∧ 0 < r.clock.endListeners ∧
      (s.view.isPlaying = true → r.clock.Running jumped) := by
  obtain ⟨slug, -, got⟩ := Option.bind_eq_some_iff.mp found
  have shown : s.draft.clock? = some r.clock :=
    congrArg (Option.map fun r : TestResult τ => r.clock) found
  exact ⟨h.clocks r (List.mem_of_find?_eq_some got), h.listened _ shown,
    fun playing => h.running playing _ shown⟩

theorem ready_ofCode (language : Language) (code : String) :
    (ofCode language code : Session τ).Ready jumped :=
  ⟨⟨nofun, rfl, nofun⟩, nofun⟩

theorem Ready.choose (h : s.Ready jumped) (choice : Choice τ) : (s.choose choice).Ready jumped := by
  cases choice with
  | features features => exact h
  | watcher => exact h
  | playback autoPlay speed => exact Ready.updateView (s := { s with autoPlay, speed := _ }) h rfl
  | exercise exercise =>
      have named : s.draft.Moved { s.draft with
        view := { s.view with exerciseSlug := some exercise.slug } } := ⟨rfl, rfl, rfl⟩
      exact ready_commit ((named.trans (moved_syncTasks _ _)).ready h)

theorem ready_chosen (language : Language) (code : String) (choices : List (Choice τ)) :
    (choices.foldl choose (ofCode language code)).Ready jumped := by
  have first : (ofCode language code : Session τ).Ready jumped := ready_ofCode language code
  generalize (ofCode language code : Session τ) = s at first
  induction choices generalizing s with
  | nil => exact first
  | cons choice rest ih => exact ih _ (first.choose choice)

/-! ### Whatever is asked -/

/-- Results that are brought from elsewhere have clocks that were made for their runs. -/
def Operation.Possible : Operation τ → Prop
  | .setResults results => ∀ r ∈ results, r.clock.Made
  | _ => True

/-- The operation takes the clock to another time. -/
def Operation.jumps : Operation τ → Bool
  | .setCurrentTime _ _ _ => true
  | .goToNextFrame => true
  | .goToPreviousFrame => true
  | .goToNextBreakpoint => true
  | .goToPreviousBreakpoint => true
  | _ => false

/-- One of the operations takes a clock to another time while its test is played. -/
def jumpsWhilePlaying (s : Session τ) : List (Operation τ) → Bool
  | [] => false
  | op :: rest => (s.view.isPlaying && op.jumps) || (s.perform op).jumpsWhilePlaying rest

variable [LawfulClockTime τ]

theorem Ready.tick (h : s.Ready jumped) (elapsed : τ) : (s.tick elapsed).Ready jumped := by
  cases found : s.currentResult? with
  | none =>
      rw [tick_of_none h.acted found]
      exact h
  | some r =>
      obtain ⟨sound, listened, running⟩ := h.found found
      have sound' := sound.advance (elapsed * s.speed)
      rw [tick_eq h.acted found]
      rcases r.clock.advance_cases (elapsed * s.speed) with ⟨-, ran⟩ | ⟨-, ran⟩ | ⟨-, ran⟩
      · rw [ran, withClock_same found]
        exact h
      · rw [ran] at sound' ⊢
        refine (moved_handleAll _ _ _).draft.ready ⟨?_, fun playing c shown => ?_⟩
        · rw [draft_withClock]
          exact h.toHeard.modifyClock (fun _ _ => sound') fun _ _ => listened
        · rw [clock?_withClock found] at shown
          cases shown
          exact ⟨(running playing).runs, (running playing).lasts⟩
      · rw [ran] at sound' ⊢
        exact (ended_withClock h.toHeard found sound' rfl listened listened _).1

/-- A tick that is as long as the run ends the playback, unless the clock has ended already. -/
theorem Ready.ended_tick (h : s.Ready jumped) {r : TestResult τ}
    (found : s.currentResult? = some r) (playing : s.view.isPlaying = true)
    (lasts : r.clock.completed = false) {elapsed : τ}
    (long : r.clock.duration ≤ elapsed * s.speed) : s.Ended (s.tick elapsed) := by
  obtain ⟨sound, listened, running⟩ := h.found found
  have reached := sound.duration_le_reached long
  have sound' := sound.advance (elapsed * s.speed)
  rw [tick_eq h.acted found]
  rcases r.clock.advance_cases (elapsed * s.speed) with ⟨still, -⟩ | ⟨short, -⟩ | ⟨-, ran⟩
  · rw [(running playing).runs, lasts] at still
    rcases still with none | none <;> cases none
  · exact absurd reached short
  · rw [ran] at sound' ⊢
    obtain ⟨-, ended⟩ : Session.Ready jumped _ ∧ s.Ended _ :=
      ended_withClock h.toHeard found sound' rfl listened listened _
    exact ended

theorem Ready.perform (h : s.Ready jumped) {op : Operation τ} (possible : op.Possible) :
    (s.perform op).Ready (jumped || (s.view.isPlaying && op.jumps)) := by
  have jump {s' : Session τ} (h : s'.Ready (jumped || s.view.isPlaying)) :
      s'.Ready (jumped || (s.view.isPlaying && true)) := by
    rw [Bool.and_true]
    exact h
  have kept {s' : Session τ} (h : s'.Ready jumped) :
      s'.Ready (jumped || (s.view.isPlaying && false)) := Draft.Ready.weaken h _
  cases op with
  | runCode now => exact kept (s.ready_runCode now)
  | setResults results =>
      exact kept (s.ready_setResults fun r member => (possible r member).sound)
  | setCode code => exact kept (h.setCode code)
  | setCurrentTest slug => exact kept (h.setCurrentTest slug)
  | setCurrentTime time lookup force => exact jump (h.setCurrentTime time lookup force)
  | setPlaying playing => exact kept (h.setPlaying playing)
  | play => exact kept h.play
  | pause => exact kept h.pause
  | tick elapsed => exact kept (h.tick elapsed)
  | setBreakpoints lines => exact kept (h.updateView rfl)
  | toggleBreakpoint line => exact kept (h.updateView rfl)
  | setFoldedLines lines => exact kept (h.updateView rfl)
  | toggleFold line => exact kept (h.updateView rfl)
  | goToNextFrame => exact jump (h.goToFrame s.view.nextFrame)
  | goToPreviousFrame => exact jump (h.goToFrame s.view.previousFrame)
  | goToNextBreakpoint => exact jump (h.goToFrame s.view.nextBreakpoint)
  | goToPreviousBreakpoint => exact jump (h.goToFrame s.view.previousBreakpoint)
  | setCurrentTask id => exact kept (h.setCurrentTask id)

/-- After every sequence of operations the test that is shown can be played to its end, unless one
of them has taken its clock there while it was played. -/
theorem Ready.performAll (h : s.Ready jumped) {ops : List (Operation τ)}
    (possible : ∀ op ∈ ops, op.Possible) :
    (ops.foldl Session.perform s).Ready (jumped || s.jumpsWhilePlaying ops) := by
  induction ops generalizing s jumped with
  | nil => exact Draft.Ready.weaken h _
  | cons op rest ih =>
      obtain ⟨first, others⟩ := List.forall_mem_cons.mp possible
      rw [jumpsWhilePlaying, ← Bool.or_assoc]
      exact ih (h.perform first) others

/-- Whatever was asked before, a tick that is as long as the run of the test that is played ends the
playback: the clock has ended, playback has stopped, and what was due is celebrated. Only a clock
that has ended already is moved by no tick, so that its test is played for good; that takes a jump
of the clock while its test is played. -/
theorem playback_ends (language : Language) (code : String) (choices : List (Choice Float))
    (ops : List (Operation Float)) (possible : ∀ op ∈ ops, op.Possible) {r : TestResult Float}
    {elapsed : Float} :
    let begun := choices.foldl choose (ofCode language code)
    let s := ops.foldl perform begun
    s.currentResult? = some r → s.view.isPlaying = true →
      r.clock.duration ≤ elapsed * s.speed →
        (r.clock.completed = false → s.Ended (s.tick elapsed)) ∧
        (r.clock.completed = true → s.tick elapsed = s ∧ begun.jumpsWhilePlaying ops = true) := by
  intro begun s found playing long
  have ready : s.Ready (false || begun.jumpsWhilePlaying ops) :=
    (ready_chosen language code choices).performAll possible
  refine ⟨fun lasts => ready.ended_tick found playing lasts long, fun completed => ⟨?_, ?_⟩⟩
  · exact tick_of_completed ready.acted found completed elapsed
  · have running := (ready.found found).2.2 playing
    rw [Bool.false_or] at running
    by_contra none
    rw [running.lasts (Bool.eq_false_iff.mpr none)] at completed
    cases completed

/-- Two assignments are played, and the tick at their end celebrates them. -/
theorem two_assignments_end :
    let s : Session Float := [.runCode 0].foldl perform
      (([] : List (Choice Float)).foldl choose (ofCode .jikiScript "set a to 1\nset b to 2"))
    s.view.isPlaying = true ∧ s.isDue = true ∧ s.Ended (s.tick 10000) := by
  intro s
  have playing : s.view.isPlaying = true := by decide +kernel
  have due : s.isDue = true := by decide +kernel
  have shown : s.currentResult?.any (fun r =>
      !r.clock.completed && decide (r.clock.duration ≤ 10000 * s.speed)) = true := by
    decide +kernel
  have possible : ∀ op ∈ [(.runCode 0 : Operation Float)], op.Possible :=
    List.forall_mem_singleton.mpr trivial
  cases found : s.currentResult? with
  | none =>
      rw [found] at shown
      cases shown
  | some r =>
      rw [found] at shown
      obtain ⟨lasts, long⟩ := Bool.and_eq_true_iff.mp shown
      have ends := playback_ends .jikiScript "set a to 1\nset b to 2" [] [.runCode 0] possible found
        playing (of_decide_eq_true long)
      exact ⟨playing, due, ends.1 ((Bool.not_eq_true' _).mp lasts)⟩

/-- A jump to the end of a test that is played leaves its clock ended and the test playing; no tick
celebrates it any more. -/
theorem jump_to_the_end_is_missed :
    let s : Session Float := [.runCode 0, .setCurrentTime 1000 .exact false].foldl perform
      ([.features { timePerFrame := 1000 }].foldl choose
        (ofCode .jikiScript "set a to 1\nset b to 2"))
    s.view.isPlaying = true ∧
      s.currentResult?.any (fun r => decide (r.clock.duration ≤ 10000 * s.speed)) = true ∧
      (s.tick 10000).view.isPlaying = true ∧
      (s.tick 10000).view.allTestsPassed = true ∧ (s.tick 10000).signals = [] := by
  decide +kernel

end Session
end Walkthrough
