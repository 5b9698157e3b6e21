import Walkthrough.Proofs.Clocks
import Walkthrough.Proofs.Coherence

/-! Playback comes to its end. While a test is played, its clock runs and is listened to, and a move
that is long enough ends the clock, stops the playback and celebrates what is to be celebrated. It
does not if the clock was jumped to its end before: it stands there as ended, and nothing moves it
while the test is played. -/

namespace Walkthrough

variable {τ : Type}

namespace TestResults

theorem get?_modifyClock (rs : TestResults τ) (slug : String) (f : Clock τ → Clock τ) :
    (rs.modifyClock slug f).get? slug =
      (rs.get? slug).map fun r => { r with clock := f r.clock } := by
  unfold modifyClock get?
  induction rs with
  | nil => rfl
  | cons r rest ih =>
      unfold modify
      cases here : r.slug == slug with
      | true => simp only [if_true, List.find?_cons, here, Option.map_some]
      | false =>
          simp only [Bool.false_eq_true, if_false, List.find?_cons, here]
          exact ih

theorem forall_modifyClock {rs : TestResults τ} {slug : String} {f : Clock τ → Clock τ}
    {P : Clock τ → Prop} (all : ∀ r ∈ rs, P r.clock) (kept : ∀ c, P c → P (f c)) :
    ∀ r ∈ rs.modifyClock slug f, P r.clock := by
  unfold modifyClock
  induction rs with
  | nil => exact all
  | cons r rest ih =>
      obtain ⟨first, others⟩ := List.forall_mem_cons.mp all
      unfold modify
      split
      · exact List.forall_mem_cons.mpr ⟨kept r.clock first, others⟩
      · exact List.forall_mem_cons.mpr ⟨first, ih others⟩

theorem modifyClock_same {rs : TestResults τ} {slug : String} {r : TestResult τ}
    (found : rs.get? slug = some r) : rs.modifyClock slug (fun _ => r.clock) = rs := by
  unfold modifyClock
  unfold get? at found
  induction rs with
  | nil => rfl
  | cons first rest ih =>
      rw [List.find?_cons] at found
      unfold modify
      cases here : first.slug == slug with
      | true =>
          rw [here] at found
          cases found
          rfl
      | false =>
          rw [here] at found
          rw [if_neg Bool.false_ne_true, ih found]

end TestResults

/-- What a view says of playback: the test that is shown, whether it is being played, how the tests
have ended, and how that was celebrated. -/
def View.playback (v : View) : Option String × Bool × List TestSummary × Bool × Bool :=
  (v.currentTest, v.isPlaying, v.tests, v.wasSuccessShown, v.isSpotlightOn)

theorem View.playback_withFrame (v : View) (frames : List Frame) (index : Nat) :
    (v.withFrame frames index).playback = v.playback := by
  unfold withFrame
  split
  · rfl
  · rfl

/-- The clock runs, and it has not ended, unless it was jumped to its end. -/
structure Clock.Running (jumped : Bool) (c : Clock τ) : Prop where
  runs : c.paused = false
  lasts : jumped = false → c.completed = false

theorem Clock.running_play [ClockTime τ] (c : Clock τ) {jumped : Bool} :
    c.play.Running jumped := by
  unfold Clock.play
  split
  · exact ⟨rfl, fun _ => rfl⟩
  · next lasts => exact ⟨rfl, fun _ => Bool.eq_false_iff.mpr lasts⟩

namespace Draft

variable {d d' : Draft τ}

def clock? (d : Draft τ) : Option (Clock τ) :=
  (d.view.currentTest.bind d.results.get?).map (·.clock)

/-- The drafts show different places at most. -/
structure Moved (d d' : Draft τ) : Prop where
  playback : d'.view.playback = d.view.playback
  results : d'.results = d.results
  pending : d'.pending = d.pending

theorem Moved.refl (d : Draft τ) : d.Moved d :=
  ⟨rfl, rfl, rfl⟩

theorem Moved.trans {d'' : Draft τ} (first : d.Moved d') (second : d'.Moved d'') : d.Moved d'' :=
  ⟨second.playback.trans first.playback, second.results.trans first.results,
    second.pending.trans first.pending⟩

theorem Moved.clock? (moved : d.Moved d') : d'.clock? = d.clock? := by
  have test : d'.view.currentTest = d.view.currentTest := congrArg (·.1) moved.playback
  unfold Draft.clock?
  rw [test, moved.results]

theorem Moved.isPlaying (moved : d.Moved d') : d'.view.isPlaying = d.view.isPlaying :=
  congrArg (·.2.1) moved.playback

theorem moved_goTo {time : Micros} {lookup : FrameLookup} {force : Bool}
    (gone : d.goTo? time lookup force = some d') : d.Moved d' := by
  unfold goTo? at gone
  split at gone
  · cases gone
  · split at gone
    · cases gone
    · dsimp only at gone
      split at gone
      · cases gone
        exact ⟨View.playback_withFrame _ _ _, rfl, rfl⟩
      · cases gone
        exact ⟨rfl, rfl, rfl⟩

theorem moved_goToIfAny (d : Draft τ) (time : Micros) (lookup : FrameLookup) (force : Bool) :
    d.Moved ((d.goTo? time lookup force).getD d) := by
  cases gone : d.goTo? time lookup force with
  | none => exact .refl d
  | some d' => exact moved_goTo gone

theorem view_modifyClock (d : Draft τ) (f : Clock τ → Clock τ) :
    (d.modifyClock f).view = d.view := by
  unfold modifyClock
  split <;> rfl

theorem view_stopPlaying (d : Draft τ) :
    d.stopPlaying.view = { d.view with isPlaying := false } :=
  view_modifyClock _ _

theorem pending_modifyClock (d : Draft τ) (f : Clock τ → Clock τ) :
    (d.modifyClock f).pending = d.pending := by
  unfold modifyClock
  split <;> rfl

theorem clock?_modifyClock (d : Draft τ) (f : Clock τ → Clock τ) :
    (d.modifyClock f).clock? = d.clock?.map f := by
  unfold modifyClock Draft.clock?
  cases test : d.view.currentTest with
  | none =>
      dsimp only
      rw [test]
      rfl
  | some slug =>
      dsimp only
      rw [test, Option.bind_some, Option.bind_some, TestResults.get?_modifyClock, Option.map_map,
        Option.map_map]
      rfl

variable [ClockTime τ] {jumped : Bool}

/-- The clock of the test that is shown is listened to, and all that it has told was acted on. -/
structure Heard (d : Draft τ) : Prop where
  clocks : ∀ r ∈ d.results, r.clock.Sound
  acted : d.pending = []
  listened : ∀ c, d.clock? = some c → 0 < c.endListeners

/-- And the clock runs while the test is played; only if it was jumped may it have ended. -/
structure Ready (jumped : Bool) (d : Draft τ) : Prop extends Heard d where
  running : d.view.isPlaying = true → ∀ c, d.clock? = some c → c.Running jumped

theorem Ready.weaken (h : d.Ready jumped) (now : Bool) : d.Ready (jumped || now) := by
  refine ⟨h.toHeard, fun playing c shown => ?_⟩
  obtain ⟨runs, lasts⟩ := h.running playing c shown
  exact ⟨runs, fun none => lasts (Bool.or_eq_false_iff.mp none).1⟩

theorem Moved.heard (moved : d.Moved d') (h : d.Heard) : d'.Heard := by
  refine ⟨?_, moved.pending.trans h.acted, ?_⟩
  · rw [moved.results]
    exact h.clocks
  · rw [moved.clock?]
    exact h.listened

theorem Moved.ready (moved : d.Moved d') (h : d.Ready jumped) : d'.Ready jumped := by
  refine ⟨moved.heard h.toHeard, ?_⟩
  rw [moved.isPlaying, moved.clock?]
  exact h.running

theorem clocks_modifyClock {f : Clock τ → Clock τ} (clocks : ∀ r ∈ d.results, r.clock.Sound)
    (sound : ∀ c : Clock τ, c.Sound → (f c).Sound) :
    ∀ r ∈ (d.modifyClock f).results, r.clock.Sound := by
  unfold modifyClock
  split
  · exact TestResults.forall_modifyClock clocks sound
  · exact clocks

theorem clocks_detach (clocks : ∀ r ∈ d.results, r.clock.Sound) :
    ∀ r ∈ d.detach.results, r.clock.Sound :=
  clocks_modifyClock clocks fun _ sound => ⟨sound.duration, sound.current⟩

theorem Heard.modifyClock (h : d.Heard) {f : Clock τ → Clock τ}
    (sound : ∀ c : Clock τ, c.Sound → (f c).Sound)
    (listened : ∀ c : Clock τ, 0 < c.endListeners → 0 < (f c).endListeners) :
    (d.modifyClock f).Heard := by
  refine ⟨clocks_modifyClock h.clocks sound, ?_, ?_⟩
  · rw [pending_modifyClock]
    exact h.acted
  · rw [clock?_modifyClock]
    intro c found
    obtain ⟨before, shown, rfl⟩ := Option.map_eq_some_iff.mp found
    exact listened before (h.listened before shown)

theorem Ready.of_stopped (h : d.Heard) (stopped : d.view.isPlaying = false) : d.Ready jumped := by
  refine ⟨h, fun playing => ?_⟩
  rw [stopped] at playing
  cases playing

theorem Heard.stopPlaying (h : d.Heard) : d.stopPlaying.Ready jumped := by
  have still : Heard { d with view := { d.view with isPlaying := false } } :=
    ⟨h.clocks, h.acted, h.listened⟩
  refine .of_stopped ?_ ?_
  · exact still.modifyClock (fun c sound => ⟨sound.duration, sound.current⟩) fun c heard => heard
  · rw [view_stopPlaying]

variable [LawfulClockTime τ]

theorem Heard.play (h : d.Heard) : (d.modifyClock Clock.play).Ready jumped := by
  have endListeners (c : Clock τ) : c.play.endListeners = c.endListeners := by
    unfold Clock.play
    split <;> rfl
  refine ⟨h.modifyClock (fun _ sound => sound.play) fun c some => ?_, fun _ c found => ?_⟩
  · rw [endListeners]
    exact some
  · rw [clock?_modifyClock] at found
    obtain ⟨before, -, rfl⟩ := Option.map_eq_some_iff.mp found
    exact before.running_play

theorem Heard.seek (h : d.Heard) (time : Micros) : (d.modifyClock (·.seek time)).Heard :=
  h.modifyClock (fun _ sound => sound.seek time) fun _ some => some

theorem Ready.seek (h : d.Ready jumped) (time : Micros) :
    (d.modifyClock (·.seek time)).Ready (jumped || d.view.isPlaying) := by
  refine ⟨h.toHeard.seek time, ?_⟩
  rw [view_modifyClock, clock?_modifyClock]
  intro playing c found
  obtain ⟨before, shown, rfl⟩ := Option.map_eq_some_iff.mp found
  rw [playing, Bool.or_true]
  exact ⟨(h.running playing before shown).runs, nofun⟩

theorem Ready.startPlaying (h : d.Ready jumped) : d.startPlaying.Ready jumped := by
  unfold Draft.startPlaying
  split
  · exact h
  · dsimp only
    have begun : (if (d.view.currentTest.bind d.results.get?).any (·.clock.completed) then
        (d.goTo? 0 .exact false).getD d else d).Heard := by
      split
      · exact (moved_goToIfAny d 0 .exact false).heard h.toHeard
      · exact h.toHeard
    refine Heard.play ?_
    exact ⟨begun.clocks, begun.acted, begun.listened⟩

theorem ready_listen (clocks : ∀ r ∈ d.results, r.clock.Sound) (acted : d.pending = [])
    (stopped : d.view.isPlaying = false) (time : Micros) :
    (d.modifyClock fun c => (c.listenMoves.listenEnd).seek time).Ready jumped := by
  refine .of_stopped ⟨?_, ?_, ?_⟩ ?_
  · refine clocks_modifyClock clocks fun c sound => ?_
    have heard : c.listenMoves.listenEnd.Sound := ⟨sound.duration, sound.current⟩
    exact heard.seek time
  · rw [pending_modifyClock]
    exact acted
  · intro c found
    rw [clock?_modifyClock] at found
    obtain ⟨before, -, rfl⟩ := Option.map_eq_some_iff.mp found
    exact Nat.succ_pos before.endListeners
  · rw [view_modifyClock]
    exact stopped

/-- However the test before was left, the one that is shown next is ready. -/
theorem ready_showTest (clocks : ∀ r ∈ d.results, r.clock.Sound) {slug : String}
    (shown : d.showTest? slug = some d') : d'.Ready jumped := by
  unfold showTest? at shown
  split at shown
  · cases shown
  · split at shown
    · cases shown
    · extract_lets left _ view start time clocked begun at shown
      have ready : clocked.Ready jumped :=
        ready_listen (d := { left with view }) (clocks_detach clocks) rfl rfl time
      have moved : begun.Ready jumped := (moved_goToIfAny clocked time .nearest true).ready ready
      cases shown
      split
      · exact moved.startPlaying
      · exact moved

theorem ready_withResults (d : Draft τ) {results : TestResults τ}
    (clocks : ∀ r ∈ results, r.clock.Sound) (autoPlay : Bool) :
    (d.withResults results autoPlay).Ready jumped := by
  unfold withResults
  extract_lets left passed _ cleared view fresh
  have ready : fresh.Ready jumped := .of_stopped ⟨clocks, rfl, nofun⟩ rfl
  cases results.head? with
  | none => exact ready
  | some first =>
      dsimp only
      cases shown : fresh.showTest? first.slug with
      | none => exact ready
      | some d' => exact ready_showTest clocks shown

theorem Heard.pause (h : d.Heard) : d.pause.Ready jumped := by
  unfold Draft.pause
  extract_lets stopped _ kept nearest snapped _ note _
  have still : stopped.Moved kept := ⟨rfl, rfl, rfl⟩
  have ready : kept.Ready jumped := still.ready h.stopPlaying
  have standing : kept.view.isPlaying = false :=
    congrArg View.isPlaying d.view_stopPlaying
  have moved : snapped.Ready jumped := by
    unfold snapped
    split
    · next frame _ =>
        have gone := moved_goToIfAny kept frame.time .exact true
        refine .of_stopped ((gone.heard ready.toHeard).seek _) ?_
        rw [view_modifyClock, gone.isPlaying]
        exact standing
    · exact ready
  have told : snapped.Moved { snapped with view := { snapped.view with note } } := ⟨rfl, rfl, rfl⟩
  exact told.ready moved

end Draft

namespace Session

variable {s s' : Session τ}

theorem moved_syncTasks (s : Session τ) (d : Draft τ) : d.Moved (s.syncTasks d) := by
  unfold syncTasks
  split
  · exact ⟨rfl, rfl, rfl⟩
  · exact .refl d

variable [ClockTime τ] {jumped : Bool}

/-- The test that is shown can be played to its end, unless a jump has taken its clock there. -/
def Ready (jumped : Bool) (s : Session τ) : Prop :=
  s.draft.Ready jumped

theorem ready_commit {d : Draft τ} (h : d.Ready jumped) : (s.commit d).Ready jumped := by
  rw [Ready, draft_commit]
  exact h

theorem Ready.updateView (h : s.Ready jumped) {f : View → View}
    (same : (f s.view).playback = s.view.playback) : (s.updateView f).Ready jumped := by
  have moved : s.draft.Moved { s.draft with view := f s.view } := ⟨same, rfl, rfl⟩
  exact ready_commit (moved.ready h)

theorem Ready.setCode (h : s.Ready jumped) (code : String) : (s.setCode code).Ready jumped := by
  refine h.updateView ?_
  split
  · rfl
  · rfl

theorem Ready.setCurrentTask (h : s.Ready jumped) (id : String) :
    (s.setCurrentTask id).Ready jumped := by
  unfold Session.setCurrentTask
  split
  · exact ready_commit ((moved_syncTasks _ _).ready h)
  · exact h

section Results

variable [LawfulClockTime τ]

theorem clocks_runTests (s : Session τ) : ∀ r ∈ s.runTests, r.clock.Sound := by
  unfold runTests
  split
  · next exercise _ =>
      intro r member
      obtain ⟨scenario, -, rfl⟩ := List.mem_map.mp member
      exact TestResult.sound_ofScenario exercise scenario _ _ _
  · exact List.forall_mem_singleton.mpr (TestResult.sound_ofProgram _ _ _)

theorem ready_setResults (s : Session τ) {results : TestResults τ}
    (clocks : ∀ r ∈ results, r.clock.Sound) : (s.setResults results).Ready jumped :=
  ready_commit (s.draft.ready_withResults clocks s.autoPlay)

theorem ready_runCode (s : Session τ) (now : Int) : (s.runCode now).Ready jumped := by
  unfold runCode
  extract_lets running results
  have clocks := running.clocks_runTests
  exact ready_commit ((moved_syncTasks _ _).ready (Draft.ready_withResults _ clocks _))

theorem Ready.setCurrentTest (h : s.Ready jumped) (slug : String) :
    (s.setCurrentTest slug).Ready jumped := by
  unfold Session.setCurrentTest
  cases shown : s.draft.showTest? slug with
  | none => exact h
  | some d => exact ready_commit (Draft.ready_showTest h.clocks shown)

theorem Ready.setCurrentTime (h : s.Ready jumped) (time : Micros) (lookup : FrameLookup)
    (force : Bool) : (s.setCurrentTime time lookup force).Ready (jumped || s.view.isPlaying) := by
  unfold Session.setCurrentTime
  cases gone : s.draft.goTo? time lookup force with
  | none => exact Draft.Ready.weaken h _
  | some d =>
      have moved := Draft.moved_goTo gone
      have playing : d.view.isPlaying = s.view.isPlaying := moved.isPlaying
      rw [← playing]
      exact ready_commit ((moved.ready h).seek time)

theorem Ready.setPlaying (h : s.Ready jumped) (playing : Bool) :
    (s.setPlaying playing).Ready jumped := by
  unfold Session.setPlaying
  split
  · exact ready_commit (Draft.Ready.startPlaying h)
  · exact ready_commit h.toHeard.stopPlaying

theorem Ready.play (h : s.Ready jumped) : s.play.Ready jumped := by
  unfold Session.play
  split
  · exact h
  · exact h.setPlaying true

theorem Ready.pause (h : s.Ready jumped) : s.pause.Ready jumped := by
  unfold Session.pause
  split
  · exact h
  · exact ready_commit h.toHeard.pause

theorem Ready.goToFrame (h : s.Ready jumped) (index : Option Nat) :
    (s.goToFrame index).Ready (jumped || s.view.isPlaying) := by
  unfold Session.goToFrame
  split
  · next frame _ => exact h.setCurrentTime frame.time .exact false
  · exact Draft.Ready.weaken h _

end Results

end Session

end Walkthrough
