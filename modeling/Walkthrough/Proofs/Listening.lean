import Walkthrough.Proofs.Completion
import Walkthrough.Proofs.Positions

/-! Every clock is heard as it should be. The clock of the test that is shown has one listener to
its moves and one to its end, and runs while that test is played; the clocks of all other tests
stand still, and nobody hears them. So a tick does what one clock tells, once, and nothing of what
another clock has told is left over. -/

namespace Walkthrough

variable {τ : Type}

namespace Clock

/-- So many listeners hear of the moves of the clock, and so many of its end. -/
structure HeardBy (count : Nat) (c : Clock τ) : Prop where
  moves : c.moveListeners = count
  ends : c.endListeners = count

/-- A clock as that of the test that is shown: heard once, and running while the test is played. -/
structure Attended (playing : Bool) (c : Clock τ) : Prop where
  heard : c.HeardBy 1
  paused : c.paused = !playing

/-- A clock as those of all other tests: it stands still, and nobody hears it. -/
structure Idle (c : Clock τ) : Prop where
  heard : c.HeardBy 0
  paused : c.paused = true

variable {c : Clock τ} {playing : Bool}

theorem HeardBy.pause (heard : c.HeardBy 1) : c.pause.Attended false :=
  ⟨⟨heard.moves, heard.ends⟩, rfl⟩

theorem idle_leave (c : Clock τ) : (c.clearMoves.clearEnd.pause).Idle :=
  ⟨⟨rfl, rfl⟩, rfl⟩

variable [ClockTime τ]

/-- The clock was made for a run, and nothing was done to it yet. -/
def IsNew (c : Clock τ) : Prop :=
  ∃ animations frames, c = ofRun animations frames

theorem IsNew.idle (new : c.IsNew) : c.Idle := by
  obtain ⟨animations, frames, rfl⟩ := new
  exact ⟨⟨rfl, rfl⟩, rfl⟩

theorem Attended.play (h : c.Attended playing) : c.play.Attended true := by
  unfold Clock.play
  split
  · exact ⟨⟨h.heard.moves, h.heard.ends⟩, rfl⟩
  · exact ⟨⟨h.heard.moves, h.heard.ends⟩, rfl⟩

theorem Attended.seek (h : c.Attended playing) (time : Micros) : (c.seek time).Attended playing :=
  ⟨⟨h.heard.moves, h.heard.ends⟩, h.paused⟩

theorem Idle.listen (h : c.Idle) (time : Micros) :
    ((c.listenMoves.listenEnd).seek time).Attended false := by
  refine ⟨⟨?_, ?_⟩, h.paused⟩
  · exact congrArg (· + 1) h.heard.moves
  · exact congrArg (· + 1) h.heard.ends

end Clock

namespace TestResults

def place? (rs : TestResults τ) (slug : String) : Option Nat :=
  rs.findIdx? fun r => r.slug == slug

theorem get?_eq_place (rs : TestResults τ) (slug : String) :
    rs.get? slug = (rs.place? slug).bind (rs[·]?) :=
  List.find?_eq_bind_findIdx?_getElem?

theorem place?_modifyClock (rs : TestResults τ) (slug other : String) (f : Clock τ → Clock τ) :
    (rs.modifyClock slug f).place? other = rs.place? other := by
  have named : (rs.modifyClock slug f).map (·.slug) = rs.map (·.slug) := by
    rw [slugs_eq, slugs_eq, face_modifyClock]
  have byName (rs : TestResults τ) : rs.place? other = (rs.map (·.slug)).findIdx? (· == other) := by
    rw [List.findIdx?_map]
    rfl
  rw [byName, byName, named]

theorem getElem?_modifyClock (rs : TestResults τ) (slug : String) (f : Clock τ → Clock τ)
    (i : Nat) : (rs.modifyClock slug f)[i]? =
      if rs.place? slug = some i then rs[i]?.map fun r => { r with clock := f r.clock }
      else rs[i]? := by
  unfold modifyClock place?
  induction rs generalizing i with
  | nil => simp [modify]
  | cons r rest ih =>
      unfold modify
      by_cases here : r.slug == slug
      · cases i with
        | zero => simp [List.findIdx?_cons, here]
        | succ i => simp [List.findIdx?_cons, here]
      · cases i with
        | zero => simp [List.findIdx?_cons, here]
        | succ i => simp [List.findIdx?_cons, here, ih]

end TestResults

namespace Draft

variable {d d' : Draft τ} {here away : Clock τ → Prop}

/-- Where among the results the test that is shown is. -/
def place? (d : Draft τ) : Option Nat :=
  d.view.currentTest.bind d.results.place?

/-- One thing is true of the clock of the test that is shown, and another of all other clocks. -/
def Ruled (here away : Clock τ → Prop) (d : Draft τ) : Prop :=
  ∀ i r, d.results[i]? = some r → if d.place? = some i then here r.clock else away r.clock

theorem place?_modifyClock (d : Draft τ) (f : Clock τ → Clock τ) :
    (d.modifyClock f).place? = d.place? := by
  unfold modifyClock place?
  cases test : d.view.currentTest with
  | none => simp [test]
  | some slug => simp [test, TestResults.place?_modifyClock]

theorem Moved.place? (moved : d.Moved d') : d'.place? = d.place? := by
  have test : d'.view.currentTest = d.view.currentTest := congrArg (·.1) moved.playback
  unfold Draft.place?
  rw [test, moved.results]

theorem Moved.ruled (moved : d.Moved d') (h : d.Ruled here away) : d'.Ruled here away := by
  intro i r found
  rw [moved.results] at found
  rw [moved.place?]
  exact h i r found

theorem Ruled.modifyClock {there : Clock τ → Prop} (h : d.Ruled here away) {f : Clock τ → Clock τ}
    (kept : ∀ c, here c → there (f c)) : (d.modifyClock f).Ruled there away := by
  intro i r found
  rw [place?_modifyClock]
  unfold Draft.modifyClock at found
  cases test : d.view.currentTest with
  | none =>
      rw [test] at found
      have unplaced : d.place? ≠ some i := by simp [Draft.place?, test]
      have before := h i r found
      rw [if_neg unplaced] at before ⊢
      exact before
  | some slug =>
      have place : d.place? = d.results.place? slug := by simp [Draft.place?, test]
      rw [test] at found
      dsimp only at found
      rw [TestResults.getElem?_modifyClock, ← place] at found
      split at found
      · next same =>
          obtain ⟨old, there, rfl⟩ := Option.map_eq_some_iff.mp found
          have before := h i old there
          rw [if_pos same] at before ⊢
          exact kept old.clock before
      · next apart =>
          have before := h i r found
          rw [if_neg apart] at before ⊢
          exact before

theorem ruled_of_all (all : ∀ r ∈ d.results, away r.clock) : d.Ruled away away := by
  intro i r found
  rw [ite_self]
  exact all r (List.mem_of_getElem? found)

theorem Ruled.all (h : d.Ruled away away) : ∀ r ∈ d.results, away r.clock := by
  intro r member
  obtain ⟨i, found⟩ := List.getElem?_of_mem member
  have there := h i r found
  rwa [ite_self] at there

/-- The drafts agree but for the clock of the test that is shown, and for what is shown of it. -/
structure Alone (d d' : Draft τ) : Prop where
  place : d'.place? = d.place?
  others : ∀ i, d.place? ≠ some i → d'.results[i]? = d.results[i]?

theorem Alone.trans {d'' : Draft τ} (first : d.Alone d') (second : d'.Alone d'') :
    d.Alone d'' := by
  refine ⟨second.place.trans first.place, ?_⟩
  intro i apart
  have still : d'.place? ≠ some i := by
    rw [first.place]
    exact apart
  rw [second.others i still, first.others i apart]

theorem Moved.alone (moved : d.Moved d') : d.Alone d' := by
  refine ⟨moved.place?, ?_⟩
  intro i _
  rw [moved.results]

theorem alone_modifyClock (d : Draft τ) (f : Clock τ → Clock τ) : d.Alone (d.modifyClock f) := by
  refine ⟨d.place?_modifyClock f, ?_⟩
  intro i apart
  unfold modifyClock
  cases test : d.view.currentTest with
  | none => rfl
  | some slug =>
      have place : d.place? = d.results.place? slug := by simp [place?, test]
      dsimp only
      rw [TestResults.getElem?_modifyClock, ← place, if_neg apart]

theorem alone_stopPlaying (d : Draft τ) : d.Alone d.stopPlaying := by
  have stopped : d.Alone { d with view := { d.view with isPlaying := false } } :=
    ⟨rfl, fun _ _ => rfl⟩
  exact stopped.trans (alone_modifyClock _ Clock.pause)

/-- The clock of the test that is shown is heard once and runs while it is played, all others are
idle, and everything that was told has been acted on. -/
structure Tuned (d : Draft τ) : Prop where
  acted : d.pending = []
  clocks : d.Ruled (Clock.Attended d.view.isPlaying) Clock.Idle

theorem Moved.tuned (moved : d.Moved d') (h : d.Tuned) : d'.Tuned := by
  refine ⟨moved.pending.trans h.acted, ?_⟩
  rw [moved.isPlaying]
  exact moved.ruled h.clocks

theorem Tuned.heard (h : d.Tuned) : d.Ruled (Clock.HeardBy 1) Clock.Idle := by
  intro i r found
  have there := h.clocks i r found
  split at there
  · next same =>
      rw [if_pos same]
      exact there.heard
  · next apart =>
      rw [if_neg apart]
      exact there

theorem tuned_stopPlaying (acted : d.pending = []) (heard : d.Ruled (Clock.HeardBy 1) Clock.Idle) :
    d.stopPlaying.Tuned := by
  have still : Ruled (Clock.HeardBy 1) Clock.Idle
      { d with view := { d.view with isPlaying := false } } := heard
  constructor
  · unfold stopPlaying
    rw [pending_modifyClock]
    exact acted
  · rw [view_stopPlaying]
    apply still.modifyClock
    intro c heard
    exact heard.pause

theorem idle_detach (h : d.Ruled here Clock.Idle) : ∀ r ∈ d.detach.results, r.clock.Idle := by
  have left : (d.modifyClock fun c => c.clearMoves.clearEnd.pause).Ruled Clock.Idle Clock.Idle := by
    apply h.modifyClock
    intro c _
    exact c.idle_leave
  exact left.all

theorem Tuned.seek [ClockTime τ] (h : d.Tuned) (time : Micros) :
    (d.modifyClock (·.seek time)).Tuned := by
  constructor
  · rw [pending_modifyClock]
    exact h.acted
  · rw [view_modifyClock]
    apply h.clocks.modifyClock
    intro c attended
    exact attended.seek time

section Playback

variable [ClockTime τ]

theorem Tuned.played (h : d.Tuned) : d.played.Tuned := by
  let begun : Draft τ := { d with view := { d.view with
    isPlaying := true, note := { d.view.note with visible := false } } }
  have clocks : begun.Ruled (Clock.Attended d.view.isPlaying) Clock.Idle := h.clocks
  constructor
  · unfold Draft.played
    rw [pending_modifyClock]
    exact h.acted
  · unfold Draft.played
    rw [view_modifyClock]
    apply clocks.modifyClock
    intro c attended
    exact attended.play

theorem Tuned.startPlaying (h : d.Tuned) : d.startPlaying.Tuned := by
  rw [startPlaying_eq]
  split
  · exact h
  · apply Tuned.played
    unfold rewound
    split
    · exact (moved_goToIfAny d 0 .exact false).tuned h
    · exact h

theorem tuned_turned (idle : ∀ r ∈ d.results, r.clock.Idle) (acted : d.pending = [])
    (slug : String) (time : Micros) : (d.turned slug time).Tuned := by
  let shown : Draft τ := { d with
    view := { d.view with currentTest := some slug, isPlaying := false }.withoutFrame }
  have clocks : shown.Ruled Clock.Idle Clock.Idle := ruled_of_all idle
  constructor
  · unfold turned
    rw [pending_modifyClock]
    exact acted
  · rw [view_turned]
    apply clocks.modifyClock
    intro c unheard
    exact unheard.listen time

theorem tuned_opened (idle : ∀ r ∈ d.results, r.clock.Idle) (acted : d.pending = [])
    (slug : String) (time : Micros) : (d.opened slug time).Tuned := by
  have turned := tuned_turned idle acted slug time
  have begun := (moved_goToIfAny (d.turned slug time) time .nearest true).tuned turned
  unfold opened
  dsimp only
  split
  · exact begun.startPlaying
  · exact begun

theorem tuned_showTest (h : d.Ruled here Clock.Idle) {slug : String}
    (shown : d.showTest? slug = some d') : d'.Tuned := by
  rw [showTest?_eq] at shown
  split at shown
  · cases shown
  · obtain ⟨result, -, rfl⟩ := Option.map_eq_some_iff.mp shown
    exact tuned_opened (idle_detach h) rfl _ _

theorem tuned_withResults (d : Draft τ) {results : TestResults τ}
    (idle : ∀ r ∈ results, r.clock.Idle) (autoPlay : Bool) :
    (d.withResults results autoPlay).Tuned := by
  unfold withResults
  extract_lets left passed _ cleared view fresh
  have clocks : fresh.Ruled Clock.Idle Clock.Idle := ruled_of_all idle
  have tuned : fresh.Tuned := by
    refine ⟨rfl, ?_⟩
    intro i r found
    have unplaced : fresh.place? ≠ some i := nofun
    rw [if_neg unplaced]
    exact idle r (List.mem_of_getElem? found)
  cases results.head? with
  | none => exact tuned
  | some first =>
      dsimp only
      cases shown : fresh.showTest? first.slug with
      | none => exact tuned
      | some d' => exact tuned_showTest clocks shown

theorem Tuned.pause (h : d.Tuned) : d.pause.Tuned := by
  unfold Draft.pause
  extract_lets stopped _ kept nearest snapped _ note _
  have still : stopped.Moved kept := ⟨rfl, rfl, rfl⟩
  have tuned : kept.Tuned := still.tuned (tuned_stopPlaying h.acted h.heard)
  have gone : snapped.Tuned := by
    unfold snapped
    split
    · next frame _ =>
        apply Tuned.seek
        exact (moved_goToIfAny kept frame.time .exact true).tuned tuned
    · exact tuned
  have told : snapped.Moved { snapped with view := { snapped.view with note } } := ⟨rfl, rfl, rfl⟩
  exact told.tuned gone

end Playback

end Draft

namespace Session

variable {s s' : Session τ}

def place? (s : Session τ) : Option Nat :=
  s.draft.place?

/-- The session hears the clock of the test that is shown, and no other. -/
def Tuned (s : Session τ) : Prop :=
  s.draft.Tuned

theorem tuned_commit {d : Draft τ} (h : d.Tuned) : (s.commit d).Tuned := by
  rw [Tuned, draft_commit]
  exact h

theorem Tuned.setCurrentTask (h : s.Tuned) (id : String) : (s.setCurrentTask id).Tuned := by
  unfold Session.setCurrentTask
  split
  · next book _ =>
      apply tuned_commit
      exact (moved_syncTasks { s with tasks := some book } s.draft).tuned h
  · exact h

theorem completePlayback_keeps (s : Session τ) :
    s.completePlayback.draft.place? = s.draft.place? ∧
      s.completePlayback.results = s.draft.stopPlaying.results ∧
      s.completePlayback.pending = s.pending ∧ s.completePlayback.view.isPlaying = false := by
  obtain ⟨view, draft, test, stopped⟩ := s.draft_completePlayback
  have results : s.completePlayback.results = s.draft.stopPlaying.results :=
    congrArg Draft.results draft
  have place : ({ s.draft.stopPlaying with view } : Draft τ).place? =
      s.draft.stopPlaying.place? := by
    unfold Draft.place?
    rw [test, Draft.view_stopPlaying]
    rfl
  refine ⟨?_, results, ?_, (congrArg (·.view.isPlaying) draft).trans stopped⟩
  · rw [draft, place]
    exact Draft.place?_modifyClock _ Clock.pause
  · exact (congrArg Draft.pending draft).trans (Draft.pending_modifyClock _ Clock.pause)

theorem tuned_completePlayback (acted : s.pending = [])
    (heard : s.draft.Ruled (Clock.HeardBy 1) Clock.Idle) : s.completePlayback.Tuned := by
  have tuned := Draft.tuned_stopPlaying acted heard
  obtain ⟨place, results, pending, stopped⟩ := s.completePlayback_keeps
  refine ⟨pending.trans acted, ?_⟩
  intro i r found
  have there := tuned.clocks i r (results ▸ found)
  have same : s.draft.stopPlaying.place? = s.draft.place? :=
    Draft.place?_modifyClock _ Clock.pause
  have playing : s.draft.stopPlaying.view.isPlaying = false :=
    congrArg View.isPlaying s.draft.view_stopPlaying
  have stands : s.completePlayback.draft.view.isPlaying = false := stopped
  rw [same, playing] at there
  rw [place, stands]
  exact there

theorem alone_completePlayback (s : Session τ) : s.draft.Alone s.completePlayback.draft := by
  obtain ⟨place, results, -, -⟩ := s.completePlayback_keeps
  refine ⟨place, ?_⟩
  intro i apart
  have stopped : s.draft.Alone s.draft.stopPlaying := s.draft.alone_stopPlaying
  have here : s.completePlayback.draft.results = s.draft.stopPlaying.results := results
  rw [here]
  exact stopped.others i apart

theorem Coherent.found {ran : Bool} (h : s.Coherent ran) {slug : String}
    (shown : s.view.currentTest = some slug) :
    ∃ r, s.currentResult? = some r ∧ r.slug = slug := by
  obtain ⟨known, member, named⟩ := List.mem_map.mp (h.placed.test slug shown)
  have there : (s.results.get? slug).isSome = true := by
    rw [TestResults.get?, List.find?_isSome]
    exact ⟨known, member, beq_iff_eq.mpr named⟩
  obtain ⟨r, found⟩ := Option.isSome_iff_exists.mp there
  refine ⟨r, ?_, TestResults.slug_of_get? found⟩
  rw [currentResult?, shown]
  exact found

theorem place_of_found {r : TestResult τ} (found : s.currentResult? = some r) :
    ∃ i, s.place? = some i ∧ s.results[i]? = some r := by
  obtain ⟨slug, test, got⟩ := Option.bind_eq_some_iff.mp found
  rw [TestResults.get?_eq_place] at got
  obtain ⟨i, place, there⟩ := Option.bind_eq_some_iff.mp got
  refine ⟨i, ?_, there⟩
  have here : s.place? = s.view.currentTest.bind s.results.place? := rfl
  rw [here, test]
  exact place

theorem Tuned.attended (h : s.Tuned) {r : TestResult τ} (found : s.currentResult? = some r) :
    r.clock.Attended s.view.isPlaying := by
  obtain ⟨i, place, there⟩ := place_of_found found
  have here := h.clocks i r there
  rwa [if_pos (show s.draft.place? = some i from place)] at here

variable [ClockTime τ]

theorem new_runTests (s : Session τ) : ∀ r ∈ s.runTests, r.clock.IsNew := by
  unfold runTests
  split
  · next exercise _ =>
      intro r member
      obtain ⟨scenario, -, rfl⟩ := List.mem_map.mp member
      unfold TestResult.ofScenario
      split
      · exact ⟨_, _, rfl⟩
      · exact ⟨_, _, rfl⟩
      · exact ⟨_, _, rfl⟩
  · intro r member
    obtain rfl := List.mem_singleton.mp member
    exact ⟨_, _, rfl⟩

/-- Results that the operation brings from elsewhere have clocks to which nothing was done yet. -/
def Operation.BringsNew : Operation τ → Prop
  | .setResults results => ∀ r ∈ results, r.clock.IsNew
  | _ => True

theorem Edit.tuned {op : Operation τ} {d : Draft τ} (edit : s.Edit op d) (h : s.Tuned) :
    d.Tuned := by
  cases edit with
  | setCode code =>
      have same : s.draft.Moved { s.draft with
          view := if s.view.code = code then s.view
            else { s.view with code, isCodeEdited := true } } := by
        refine ⟨?_, rfl, rfl⟩
        dsimp only
        split
        · rfl
        · rfl
      exact same.tuned h
  | setLines lines breakpoints foldedLines =>
      have same : s.draft.Moved { s.draft with
          view := { s.view with breakpoints, foldedLines }.withNavigation s.frames } :=
        ⟨rfl, rfl, rfl⟩
      exact same.tuned h
  | showTest shown => exact Draft.tuned_showTest h.clocks shown
  | goTo gone => exact ((Draft.moved_goTo gone).tuned h).seek _
  | step offered here gone => exact ((Draft.moved_goTo gone).tuned h).seek _
  | startPlaying plays => exact Draft.Tuned.startPlaying h
  | stopPlaying => exact Draft.tuned_stopPlaying h.acted (Draft.Tuned.heard h)
  | pause => exact Draft.Tuned.pause h

theorem tuned_results {op : Operation τ} (brings : op.bringsResults = true)
    (new : op.BringsNew) : (s.perform op).Tuned := by
  obtain ⟨tasked, d, results, autoPlay, made, -, draft⟩ := perform_results (s := s) brings
  have idle : ∀ r ∈ results, r.clock.Idle := by
    intro r member
    rcases made with rfl | ⟨run, rfl⟩
    · exact (new r member).idle
    · exact (run.new_runTests r member).idle
  unfold Tuned
  rw [draft]
  exact (moved_syncTasks tasked _).tuned (d.tuned_withResults idle autoPlay)

/-! ### Ticks -/

/-- The clock of the test that is shown is put in a state, and the news of its move is acted on. -/
def moveClock (s : Session τ) (c : Clock τ) (time : τ) : Session τ :=
  (s.withClock c).handle (.moved time)

theorem moved_moveClock (s : Session τ) (c : Clock τ) (time : τ) :
    (s.draft.modifyClock fun _ => c).Moved (s.moveClock c time).draft := by
  rw [← draft_withClock]
  exact (moved_handle (s.withClock c) time).draft

theorem ruled_moveClock {here there away : Clock τ → Prop} {c : Clock τ}
    (h : s.draft.Ruled here away) (kept : there c) (time : τ) :
    (s.moveClock c time).draft.Ruled there away := by
  apply (s.moved_moveClock c time).ruled
  apply h.modifyClock
  intro _ _
  exact kept

theorem acted_moveClock (acted : s.pending = []) (c : Clock τ) (time : τ) :
    (s.moveClock c time).pending = [] := by
  have told := (s.moved_moveClock c time).pending
  rw [Draft.pending_modifyClock] at told
  exact told.trans acted

theorem isPlaying_moveClock (s : Session τ) (c : Clock τ) (time : τ) :
    (s.moveClock c time).view.isPlaying = s.view.isPlaying := by
  have kept := (s.moved_moveClock c time).isPlaying
  rw [Draft.view_modifyClock] at kept
  exact kept

theorem alone_moveClock (s : Session τ) (c : Clock τ) (time : τ) :
    s.draft.Alone (s.moveClock c time).draft :=
  (s.draft.alone_modifyClock _).trans (s.moved_moveClock c time).alone

theorem currentTime_moveClock {slug : String} (shown : s.view.currentTest = some slug)
    (c : Clock τ) (time : τ) :
    (s.moveClock c time).view.currentTime = ClockTime.toMicros time := by
  have test : (s.withClock c).draft.view.currentTest ≠ none := by
    rw [draft_withClock, Draft.view_modifyClock]
    exact shown ▸ Option.some_ne_none slug
  unfold moveClock handle
  dsimp only
  cases gone : (s.withClock c).draft.goTo? (ClockTime.toMicros time) .exact false with
  | none =>
      rcases Draft.goTo?_eq_none.mp gone with none | ⟨same, -⟩
      · exact absurd none test
      · exact same
  | some d =>
      rw [view_commit]
      exact congrArg Viewpoint.time (Draft.viewpoint_goTo gone)

/-- The result is that of the test that is shown, and its clock runs. -/
structure Runs (s : Session τ) (r : TestResult τ) : Prop where
  found : s.currentResult? = some r
  paused : r.clock.paused = false
  completed : r.clock.completed = false

/-- What a tick does: nothing, unless the clock of the test that is shown runs; then one move of
that clock is acted on, and its end if the clock has come to it. -/
inductive Ticked (s : Session τ) (elapsed : τ) : Session τ → Prop
  | still (stands : ∀ r, ¬ s.Runs r) : s.Ticked elapsed s
  | moved (r : TestResult τ) (now : τ) (runs : s.Runs r)
      (reached : now = r.clock.reached (elapsed * s.speed)) (before : ¬ r.clock.duration ≤ now) :
      s.Ticked elapsed (s.moveClock { r.clock with current := now } now)
  | ended (r : TestResult τ) (now : τ) (runs : s.Runs r)
      (reached : now = r.clock.reached (elapsed * s.speed)) (atEnd : r.clock.duration ≤ now) :
      s.Ticked elapsed
        ((s.moveClock { r.clock with current := now, completed := true, paused := true } now).handle
          (.completed now))

theorem ticked_still (acted : s.pending = []) {r : TestResult τ}
    (found : s.currentResult? = some r)
    (stands : r.clock.paused = true ∨ r.clock.completed = true) (elapsed : τ) :
    s.Ticked elapsed (s.tick elapsed) := by
  have still : r.clock.advance (elapsed * s.speed) = (r.clock, []) := by
    unfold Clock.advance
    rw [← Bool.or_eq_true] at stands
    rw [stands, if_pos rfl]
  rw [tick_eq acted found, still, List.foldl_nil, withClock_same found]
  apply Ticked.still
  intro other runs
  cases found.symm.trans runs.found
  rcases stands with paused | completed
  · exact Bool.false_ne_true (runs.paused.symm.trans paused)
  · exact Bool.false_ne_true (runs.completed.symm.trans completed)

theorem Tuned.ticked (h : s.Tuned) (elapsed : τ) : s.Ticked elapsed (s.tick elapsed) := by
  cases found : s.currentResult? with
  | none =>
      rw [tick_of_none h.acted found]
      apply Ticked.still
      intro r runs
      cases found.symm.trans runs.found
  | some r =>
      by_cases stands : r.clock.paused = true ∨ r.clock.completed = true
      · exact ticked_still h.acted found stands elapsed
      · have heard := (h.attended found).heard
        have once {count : Nat} (one : count = 1) (event : ClockEvent τ) :
            List.replicate count event = [event] := by
          rw [one, List.replicate_one]
        have runs : s.Runs r := by
          rw [not_or, Bool.not_eq_true, Bool.not_eq_true] at stands
          exact ⟨found, stands.1, stands.2⟩
        rw [tick_eq h.acted found]
        rcases r.clock.advance_cases (elapsed * s.speed) with
          ⟨still, -⟩ | ⟨before, ran⟩ | ⟨atEnd, ran⟩
        · exact absurd still stands
        · rw [ran]
          simp only [once heard.moves, List.foldl_cons, List.foldl_nil]
          exact .moved r _ runs rfl before
        · rw [ran]
          simp only [once heard.moves, once heard.ends, List.singleton_append, List.foldl_cons,
            List.foldl_nil]
          exact .ended r _ runs rfl atEnd

/-- Whatever a tick does, the clocks are heard as before. -/
theorem Ticked.tuned {elapsed : τ} (ticked : s.Ticked elapsed s') (h : s.Tuned) : s'.Tuned := by
  cases ticked with
  | still stands => exact h
  | moved r now runs reached before =>
      obtain ⟨heard, paused⟩ := h.attended runs.found
      let c : Clock τ := { r.clock with current := now }
      have attended : c.Attended s.view.isPlaying := ⟨⟨heard.moves, heard.ends⟩, paused⟩
      have clocks := ruled_moveClock h.clocks attended now
      rw [← s.isPlaying_moveClock c now] at clocks
      exact ⟨acted_moveClock h.acted c now, clocks⟩
  | ended r now runs reached atEnd =>
      obtain ⟨heard, -⟩ := h.attended runs.found
      apply tuned_completePlayback
      · exact acted_moveClock h.acted _ _
      · apply ruled_moveClock h.clocks
        exact ⟨heard.moves, heard.ends⟩

theorem Ticked.alone {elapsed : τ} (ticked : s.Ticked elapsed s') : s.draft.Alone s'.draft := by
  cases ticked with
  | still stands => exact (Draft.Moved.refl s.draft).alone
  | moved r now runs reached before => exact s.alone_moveClock _ now
  | ended r now runs reached atEnd =>
      exact (s.alone_moveClock _ now).trans (alone_completePlayback _)

theorem Ticked.currentTime {elapsed : τ} (ticked : s.Ticked elapsed s') {r : TestResult τ}
    (runs : s.Runs r) : s'.view.currentTime =
      ClockTime.toMicros (r.clock.reached (elapsed * s.speed)) := by
  obtain ⟨slug, test, -⟩ := Option.bind_eq_some_iff.mp runs.found
  cases ticked with
  | still stands => exact absurd runs (stands r)
  | moved other now here reached before =>
      cases runs.found.symm.trans here.found
      rw [← reached]
      exact currentTime_moveClock test _ now
  | ended other now here reached atEnd =>
      cases runs.found.symm.trans here.found
      rw [← reached]
      have stopped := viewpoint_completePlayback (s.moveClock
        { r.clock with current := now, completed := true, paused := true } now)
      exact (congrArg Viewpoint.time stopped).trans (currentTime_moveClock test _ now)

/-! ### Whatever is asked -/

theorem Tuned.perform (h : s.Tuned) {op : Operation τ} (new : op.BringsNew) :
    (s.perform op).Tuned := by
  cases edits : op.edits with
  | true =>
      rcases perform_edit (s := s) edits with same | ⟨d, edit, same⟩
      · rw [same]
        exact h
      · rw [same]
        exact tuned_commit (edit.tuned h)
  | false =>
      cases op with
      | runCode now => exact tuned_results rfl new
      | setResults results => exact tuned_results rfl new
      | tick elapsed => exact (h.ticked elapsed).tuned h
      | setCurrentTask id => exact h.setCurrentTask id
      | _ => cases edits

theorem Tuned.performAll (h : s.Tuned) {ops : List (Operation τ)}
    (new : ∀ op ∈ ops, op.BringsNew) : (ops.foldl Session.perform s).Tuned := by
  induction ops generalizing s with
  | nil => exact h
  | cons op rest ih =>
      obtain ⟨first, others⟩ := List.forall_mem_cons.mp new
      exact ih (h.perform first) others

theorem moved_choose (s : Session τ) (choice : Choice τ) :
    s.draft.Moved (s.choose choice).draft := by
  cases choice with
  | features features => exact .refl s.draft
  | watcher => exact .refl s.draft
  | playback autoPlay speed =>
      simp only [choose, withPlayback, updateView, draft_commit]
      exact ⟨rfl, rfl, rfl⟩
  | exercise exercise =>
      simp only [choose, withExercise, draft_commit]
      have named : s.draft.Moved { s.draft with
        view := { s.view with exerciseSlug := some exercise.slug } } := ⟨rfl, rfl, rfl⟩
      exact named.trans (moved_syncTasks _ _)

theorem moved_chosen (language : Language) (code : String) (choices : List (Choice τ)) :
    (ofCode language code : Session τ).draft.Moved
      (choices.foldl choose (ofCode language code)).draft := by
  generalize (ofCode language code : Session τ) = s
  induction choices generalizing s with
  | nil => exact .refl s.draft
  | cons choice rest ih => exact (s.moved_choose choice).trans (ih _)

theorem tuned_chosen (language : Language) (code : String) (choices : List (Choice τ)) :
    (choices.foldl choose (ofCode language code)).Tuned := by
  have first : (ofCode language code : Session τ).Tuned := ⟨rfl, nofun⟩
  exact (moved_chosen language code choices).tuned first

/-- Whatever was asked of a session whose results come from runs: everything that clocks have told
has been acted on, the clock of the test that is shown has one listener to its moves and one to its
end, and the clocks of all other tests have none. So a tick acts on one move of the clock of the
test that is shown if that clock runs, and on its end at most once, and leaves all else alone. -/
theorem clocks_are_heard_once (language : Language) (code : String) (choices : List (Choice τ))
    (ops : List (Operation τ)) (new : ∀ op ∈ ops, op.BringsNew) :
    let s := ops.foldl perform (choices.foldl choose (ofCode language code))
    s.pending = [] ∧
      (∀ slug, s.view.currentTest = some slug →
        ∃ i r, s.place? = some i ∧ s.results[i]? = some r ∧ r.slug = slug) ∧
      (∀ (i : Nat) (r : TestResult τ), s.results[i]? = some r →
        r.clock.HeardBy (if s.place? = some i then 1 else 0)) ∧
      ∀ elapsed, s.Ticked elapsed (s.tick elapsed) ∧
        (s.tick elapsed).view.currentTest = s.view.currentTest ∧
        (∀ i, s.place? ≠ some i → (s.tick elapsed).results[i]? = s.results[i]?) ∧
        ∀ r, s.Runs r → (s.tick elapsed).view.currentTime =
          ClockTime.toMicros (r.clock.reached (elapsed * s.speed)) := by
  intro s
  have h : s.Tuned := (tuned_chosen language code choices).performAll new
  have coherent : s.Coherent (ops.any Operation.bringsResults) :=
    coherent_after language code choices ops
  refine ⟨h.acted, ?_, ?_, ?_⟩
  · intro slug shown
    obtain ⟨r, found, named⟩ := coherent.found shown
    obtain ⟨i, place, there⟩ := place_of_found found
    exact ⟨i, r, place, there, named⟩
  · intro i r found
    have there := h.clocks i r found
    by_cases here : s.place? = some i
    · rw [if_pos (show s.draft.place? = some i from here)] at there
      rw [if_pos here]
      exact there.heard
    · rw [if_neg (show s.draft.place? ≠ some i from here)] at there
      rw [if_neg here]
      exact there.heard
  · intro elapsed
    have ticked := h.ticked elapsed
    refine ⟨ticked, (s.stays_tick elapsed).test, ?_, ?_⟩
    · exact ticked.alone.others
    · intro r runs
      exact ticked.currentTime runs

/-- Two tests are turned to in turn, and run again; the second one is played to its end then. -/
theorem two_tests_are_heard :
    let result (slug code : String) : TestResult Float :=
      { TestResult.ofProgram code .jikiScript {} with slug }
    let results := [result "one" "set a to 1\nset b to 2", result "two" "set c to 3\nset d to 4"]
    let ops : List (Operation Float) := [.setResults results, .setCurrentTest "two", .tick 2,
      .setCurrentTest "one", .setCurrentTest "nowhere", .setResults results, .setCurrentTest "two"]
    let s := ops.foldl perform (([] : List (Choice Float)).foldl choose (ofCode .jikiScript ""))
    s.place? = some 1 ∧ (∀ r, s.results[0]? = some r → r.clock.HeardBy 0) ∧
      (∀ r, s.results[1]? = some r → r.clock.HeardBy 1) ∧
      (s.tick 10000).view.currentTest = some "two" ∧ (s.tick 10000).view.isPlaying = false := by
  intro result results ops s
  have new : ∀ op ∈ ops, op.BringsNew := by
    have brings : ∀ r ∈ results, r.clock.IsNew := by
      intro r member
      simp only [results, List.mem_cons, List.not_mem_nil, or_false] at member
      rcases member with rfl | rfl
      · exact ⟨_, _, rfl⟩
      · exact ⟨_, _, rfl⟩
    intro op member
    simp only [ops, List.mem_cons, List.not_mem_nil, or_false] at member
    rcases member with rfl | rfl | rfl | rfl | rfl | rfl | rfl
    · exact brings
    · trivial
    · trivial
    · trivial
    · trivial
    · exact brings
    · trivial
  have second : s.place? = some 1 := by decide +kernel
  have shown : s.view.currentTest = some "two" := by decide +kernel
  have ended : (s.tick 10000).view.isPlaying = false := by decide +kernel
  obtain ⟨-, -, heard, ticks⟩ := clocks_are_heard_once .jikiScript "" [] ops new
  refine ⟨second, ?_, ?_, ?_, ended⟩
  · intro r found
    have first := heard 0 r found
    rwa [if_neg (show s.place? ≠ some 0 by rw [second]; decide)] at first
  · intro r found
    have other := heard 1 r found
    rwa [if_pos second] at other
  · exact (ticks 10000).2.1.trans shown

end Session
end Walkthrough
