import Walkthrough.App.Basic
import Walkthrough.Proofs.Listening

/-! The keys keep the application consistent. Whatever is pressed, and however time passes, the
cursor stays within the source, playback runs exactly if the clock of the test that is shown does,
and a key that goes to another place takes control of playback first. -/

namespace Walkthrough

variable {τ : Type}

namespace Draft

variable {d d' : Draft τ}

/-- While there is playback, a test is shown, and its clock has not ended. -/
def Lasts (d : Draft τ) : Prop :=
  d.view.isPlaying = true → ∃ c, d.clock? = some c ∧ c.completed = false

theorem lasts_of_stopped (stopped : d.view.isPlaying = false) : d.Lasts := by
  intro playing
  rw [stopped] at playing
  cases playing

theorem Moved.lasts (moved : d.Moved d') (h : d.Lasts) : d'.Lasts := by
  unfold Lasts
  rw [moved.isPlaying, moved.clock?]
  exact h

section Playback

variable [ClockTime τ]

theorem lasts_played {c : Clock τ} (shown : d.clock? = some c) : d.played.Lasts := by
  intro _
  have kept : ({ d with view := { d.view with
      isPlaying := true, note := { d.view.note with visible := false } } } : Draft τ).clock? =
      some c := shown
  have runs : c.play.Running false := c.running_play
  refine ⟨c.play, ?_, runs.lasts rfl⟩
  unfold Draft.played
  rw [clock?_modifyClock, kept, Option.map_some]

theorem Lasts.startPlaying (h : d.Lasts) {c : Clock τ} (shown : d.clock? = some c) :
    d.startPlaying.Lasts := by
  rw [startPlaying_eq]
  split
  · exact h
  · have rewound : d.Moved d.rewound := by
      unfold Draft.rewound
      split
      · exact moved_goToIfAny d 0 .exact false
      · exact .refl d
    apply lasts_played
    rw [rewound.clock?]
    exact shown

theorem lasts_opened {slug : String} {r : TestResult τ} (found : d.results.get? slug = some r)
    (time : Micros) : (d.opened slug time).Lasts := by
  let left : Draft τ := { d with
    view := { d.view with currentTest := some slug, isPlaying := false }.withoutFrame }
  have shown : (d.turned slug time).clock? = some ((r.clock.listenMoves.listenEnd).seek time) := by
    have here : left.clock? = some r.clock := by simp [Draft.clock?, left, View.withoutFrame, found]
    unfold turned
    rw [clock?_modifyClock, here, Option.map_some]
  have stands : (d.turned slug time).view.isPlaying = false := by
    rw [view_turned]
    rfl
  have moved := moved_goToIfAny (d.turned slug time) time .nearest true
  have begun := moved.lasts (lasts_of_stopped stands)
  unfold opened
  dsimp only
  split
  · exact begun.startPlaying (moved.clock?.trans shown)
  · exact begun

theorem lasts_showTest {slug : String} (shown : d.showTest? slug = some d') : d'.Lasts := by
  rw [showTest?_eq] at shown
  split at shown
  · cases shown
  · obtain ⟨r, found, rfl⟩ := Option.map_eq_some_iff.mp shown
    have frames := TestResults.frames_of_faces d.alike_detach.faces slug
    rw [found, Option.map_some] at frames
    obtain ⟨left, there, -⟩ := Option.map_eq_some_iff.mp frames
    exact lasts_opened there _

theorem lasts_withResults (d : Draft τ) (results : TestResults τ) (autoPlay : Bool) :
    (d.withResults results autoPlay).Lasts := by
  unfold withResults
  extract_lets _ _ _ _ _ fresh
  have stopped : fresh.Lasts := lasts_of_stopped rfl
  cases results.head? with
  | none => exact stopped
  | some first =>
      dsimp only
      cases shown : fresh.showTest? first.slug with
      | none => exact stopped
      | some d' => exact lasts_showTest shown

theorem pause_waits (d : Draft τ) :
    d.pause.view.isPlaying = false ∧ d.pause.view.playsOnTestChange = false := by
  unfold pause
  extract_lets stopped _ kept nearest snapped _ note _
  have standing : kept.view.isPlaying = false := congrArg View.isPlaying d.view_stopPlaying
  change snapped.view.isPlaying = false ∧ snapped.view.playsOnTestChange = false
  unfold snapped
  split
  · next frame _ =>
      rw [view_modifyClock]
      exact ⟨(moved_goToIfAny kept frame.time .exact true).isPlaying.trans standing,
        (stays_goToIfAny kept frame.time .exact true).waits rfl⟩
  · exact ⟨standing, rfl⟩

end Playback

end Draft

namespace Session

variable {s s' : Session τ} {op : Operation τ} {code : String}

theorem lasts_commit {d : Draft τ} (h : d.Lasts) : (s.commit d).draft.Lasts := by
  rw [draft_commit]
  exact h

/-- The operation is one that keys, or the time that passes, ask for whether the session plays or
not. -/
def Operation.isGentle : Operation τ → Bool
  | .runCode _ => true
  | .setCurrentTest _ => true
  | .play => true
  | .pause => true
  | .tick _ => true
  | .toggleBreakpoint _ => true
  | .toggleFold _ => true
  | _ => false

theorem isStep_of_gentle (gentle : op.isGentle = true) : op.isStep = false := by
  cases op <;> first | rfl | cases gentle

variable [ClockTime τ]

theorem perform_jump (jumps : op.jumps = true) : s.perform op = s ∨
    ∃ d time, s.draft.Moved d ∧ s.draft.view.Stays d.view ∧
      s.perform op = s.commit (d.modifyClock (·.seek time)) := by
  have jump (time : Micros) (lookup : FrameLookup) (force : Bool) :
      s.setCurrentTime time lookup force = s ∨
      ∃ d time', s.draft.Moved d ∧ s.draft.view.Stays d.view ∧
        s.setCurrentTime time lookup force = s.commit (d.modifyClock (·.seek time')) := by
    unfold setCurrentTime
    cases gone : s.draft.goTo? time lookup force with
    | none => exact Or.inl rfl
    | some d =>
        exact Or.inr ⟨d, time, Draft.moved_goTo gone, Draft.stays_goTo gone, rfl⟩
  have step (index : Option Nat) : s.goToFrame index = s ∨
      ∃ d time', s.draft.Moved d ∧ s.draft.view.Stays d.view ∧
        s.goToFrame index = s.commit (d.modifyClock (·.seek time')) := by
    unfold goToFrame
    split
    · exact jump _ .exact false
    · exact Or.inl rfl
  cases op with
  | setCurrentTime time lookup force => exact jump time lookup force
  | goToNextFrame => exact step s.view.nextFrame
  | goToPreviousFrame => exact step s.view.previousFrame
  | goToNextBreakpoint => exact step s.view.nextBreakpoint
  | goToPreviousBreakpoint => exact step s.view.previousBreakpoint
  | _ => cases jumps

theorem jump_stays (jumps : op.jumps = true) :
    (s.perform op).view.isPlaying = s.view.isPlaying ∧ s.view.Stays (s.perform op).view := by
  rcases perform_jump (s := s) jumps with same | ⟨d, time, moved, stays, same⟩
  · rw [same]
    exact ⟨rfl, .refl s.view⟩
  · rw [same, view_commit, Draft.view_modifyClock]
    exact ⟨moved.isPlaying, stays⟩

theorem lasts_play {ran : Bool} (h : s.draft.Lasts) (coherent : s.Coherent ran) :
    s.play.draft.Lasts := by
  unfold play
  cases test : s.view.currentTest with
  | none => exact h
  | some slug =>
      obtain ⟨r, found, -⟩ := coherent.found test
      have shown : s.draft.clock? = some r.clock :=
        congrArg (Option.map fun r : TestResult τ => r.clock) found
      exact lasts_commit (Draft.Lasts.startPlaying h shown)

theorem Ticked.lasts {elapsed : τ} (ticked : s.Ticked elapsed s') (h : s.draft.Lasts) :
    s'.draft.Lasts := by
  cases ticked with
  | still stands => exact h
  | moved r now runs reached before =>
      intro _
      refine ⟨{ r.clock with current := now }, ?_, runs.completed⟩
      have shown : s.draft.clock? = some r.clock :=
        congrArg (Option.map fun r : TestResult τ => r.clock) runs.found
      rw [(s.moved_moveClock _ now).clock?, Draft.clock?_modifyClock, shown, Option.map_some]
  | ended r now runs reached atEnd =>
      exact Draft.lasts_of_stopped (completePlayback_keeps _).2.2.2

theorem Edit.lasts {d : Draft τ} (edit : s.Edit op d) (h : s.draft.Lasts)
    (gentle : op.isGentle = true) (plays : op.plays = false) : d.Lasts := by
  cases edit with
  | setCode code => cases gentle
  | setLines lines breakpoints foldedLines =>
      have same : s.draft.Moved { s.draft with
          view := { s.view with breakpoints, foldedLines }.withNavigation s.frames } :=
        ⟨rfl, rfl, rfl⟩
      exact same.lasts h
  | showTest shown => exact Draft.lasts_showTest shown
  | goTo gone => cases gentle
  | step offered here gone =>
      have step := isStep_of_offered offered
      rw [isStep_of_gentle gentle] at step
      cases step
  | startPlaying started =>
      rw [plays] at started
      cases started
  | stopPlaying => cases gentle
  | pause => exact Draft.lasts_of_stopped s.draft.pause_waits.1

theorem lasts_results (brings : op.bringsResults = true) : (s.perform op).draft.Lasts := by
  obtain ⟨tasked, d, results, autoPlay, -, -, draft⟩ := perform_results (s := s) brings
  rw [draft]
  exact (moved_syncTasks tasked _).lasts (d.lasts_withResults results autoPlay)

theorem code_perform (unedited : ∀ code, op ≠ .setCode code) :
    (s.perform op).view.code = s.view.code := by
  cases results : op.bringsResults with
  | true =>
      obtain ⟨tasked, d, results, autoPlay, -, same, draft⟩ := perform_results (s := s) results
      have view : (s.perform op).view = (tasked.syncTasks (d.withResults results autoPlay)).view :=
        congrArg Draft.view draft
      rw [view, (tasked.stays_syncTasks _).code, (d.withResults_notes results autoPlay).1, same]
  | false =>
      have follows := perform_follows (s := s) results
      generalize (s.perform op).view = v at follows
      cases follows with
      | stays h => exact h.code
      | turns h => exact h.code
      | edited => exact absurd rfl (unedited _)

/-- What holds of a session that is steered by keys: its clocks are heard, its playback lasts, its
view is coherent, and its code is the one it began with. -/
structure Steered (code : String) (s : Session τ) : Prop where
  tuned : s.Tuned
  lasts : s.draft.Lasts
  coherent : ∃ ran, s.Coherent ran
  code : s.view.code = code

theorem Steered.gentle (h : s.Steered code) (gentle : op.isGentle = true) :
    (s.perform op).Steered code := by
  obtain ⟨ran, coherent⟩ := h.coherent
  refine ⟨?_, ?_, ⟨_, coherent.perform op⟩, ?_⟩
  · apply h.tuned.perform
    cases op <;> trivial
  · cases edits : op.edits with
    | true =>
        cases plays : op.plays with
        | true =>
            cases op with
            | play => exact lasts_play h.lasts coherent
            | setPlaying playing => cases gentle
            | _ => cases plays
        | false =>
            rcases perform_edit (s := s) edits with same | ⟨d, edit, same⟩
            · rw [same]
              exact h.lasts
            · rw [same]
              exact lasts_commit (edit.lasts h.lasts gentle plays)
    | false =>
        cases op with
        | runCode now => exact lasts_results rfl
        | tick elapsed => exact (h.tuned.ticked elapsed).lasts h.lasts
        | setResults results => cases gentle
        | setCurrentTask id => cases gentle
        | _ => cases edits
  · refine (code_perform ?_).trans h.code
    rintro code rfl
    cases gentle

theorem Steered.jump (h : s.Steered code) (jumps : op.jumps = true)
    (stopped : s.view.isPlaying = false) : (s.perform op).Steered code := by
  obtain ⟨ran, coherent⟩ := h.coherent
  obtain ⟨same, stays⟩ := jump_stays (s := s) jumps
  refine ⟨?_, Draft.lasts_of_stopped (same.trans stopped), ⟨_, coherent.perform op⟩,
    stays.code.trans h.code⟩
  apply h.tuned.perform
  cases op <;> trivial

theorem Steered.pause_stops (h : s.Steered code) (playing : s.view.isPlaying = true) :
    s.pause.view.isPlaying = false ∧ s.pause.view.playsOnTestChange = false := by
  obtain ⟨c, shown, -⟩ := h.lasts playing
  have test : s.view.currentTest.isNone = false := by
    cases test : s.view.currentTest with
    | some slug => rfl
    | none =>
        have none : s.draft.view.currentTest = none := test
        rw [Draft.clock?, none] at shown
        cases shown
  unfold pause
  rw [test, if_neg Bool.false_ne_true, view_commit]
  exact s.draft.pause_waits

theorem steered_chosen (language : Language) (code : String) (choices : List (Choice τ)) :
    (choices.foldl choose (ofCode language code)).Steered code := by
  have first : (ofCode language code : Session τ).draft.Lasts := nofun
  exact ⟨tuned_chosen language code choices, (moved_chosen language code choices).lasts first,
    ⟨_, coherent_after language code choices []⟩, (chosen_shown language code choices).2.2⟩

end Session

/-! ### The application -/

/-- The key goes to another place. -/
def Key.takesControl : Key → Bool
  | .left => true
  | .right => true
  | .home => true
  | .last => true
  | .enter => true
  | .backspace => true
  | .char c => c = '[' || c = ']'
  | _ => false

namespace App

variable {code : String}

inductive Event (τ : Type) where
  | key (now : Int) (key : Key)
  | tick (elapsed : τ)

variable {a : App τ}

/-- The session is steered by keys, and the cursor is within the source. -/
structure Consistent (code : String) (a : App τ) : Prop where
  session : a.session.Steered code
  first : 1 ≤ a.cursorLine
  last : a.cursorLine ≤ max 1 (Text.lines code).length

theorem consistent_ofSession {s : Session τ} (h : s.Steered code) :
    (ofSession s).Consistent code :=
  ⟨⟨h.tuned, h.lasts, h.coherent, h.code⟩, Nat.le_refl 1, Nat.le_max_left _ _⟩

/-- The application is consistent after a key that goes to another place, it does not play, and if
it did, tests wait to be played. -/
structure Controlled (code : String) (a a' : App τ) : Prop where
  consistent : a'.Consistent code
  stopped : a'.isPlaying = false
  waits : a.isPlaying = true → a'.session.view.playsOnTestChange = false

theorem Controlled.beside {a' a'' : App τ} (h : a.Controlled code a')
    (session : a''.session = a'.session) (cursor : a''.cursorLine = a'.cursorLine) :
    a.Controlled code a'' := by
  obtain ⟨⟨steered, first, last⟩, stopped, waits⟩ := h
  have playing : a''.isPlaying = a'.isPlaying := congrArg (·.view.isPlaying) session
  refine ⟨⟨?_, ?_, ?_⟩, playing.trans stopped, ?_⟩
  · rw [session]
    exact steered
  · rw [cursor]
    exact first
  · rw [cursor]
    exact last
  · rw [session]
    exact waits

variable [ClockTime τ]

def react (a : App τ) : Event τ → App τ
  | .key now key => a.press now key
  | .tick elapsed => a.tick elapsed

theorem Consistent.gentle (h : a.Consistent code) {op : Session.Operation τ}
    (gentle : op.isGentle = true) : (a.operate op).Consistent code :=
  ⟨h.session.gentle gentle, h.first, h.last⟩

/-- A key that takes control stops the playback; if there was any, tests wait to be played then. -/
theorem Consistent.takeControl (h : a.Consistent code) :
    a.takeControl.Consistent code ∧ a.takeControl.isPlaying = false ∧
      (a.isPlaying = true → a.takeControl.session.view.playsOnTestChange = false) := by
  unfold App.takeControl
  cases playing : a.isPlaying with
  | false => exact ⟨h, playing, nofun⟩
  | true =>
      obtain ⟨stopped, waits⟩ := h.session.pause_stops playing
      exact ⟨h.gentle rfl, stopped, fun _ => waits⟩

theorem Consistent.goTo (h : a.Consistent code) (op : Session.Operation τ)
    (jumps : op.jumps = true) : a.Controlled code (a.goTo op) := by
  obtain ⟨taken, stopped, waits⟩ := h.takeControl
  obtain ⟨same, stays⟩ := Session.jump_stays (s := a.takeControl.session) jumps
  refine ⟨⟨taken.session.jump jumps stopped, taken.first, taken.last⟩, same.trans stopped, ?_⟩
  intro playing
  exact stays.waits (waits playing)

theorem Consistent.goToEnd (h : a.Consistent code) : a.Controlled code a.goToEnd := by
  unfold App.goToEnd
  extract_lets taken last ended
  have gone : a.Controlled code ended := by
    unfold ended
    cases last with
    | none =>
        obtain ⟨consistent, stopped, waits⟩ := h.takeControl
        exact ⟨consistent, stopped, waits⟩
    | some time => exact h.goTo (.setCurrentTime time .nearest true) rfl
  exact gone.beside rfl rfl

theorem Consistent.operated (h : a.Consistent code) {op : Session.Operation τ}
    (gentle : op.isGentle = true) (message : String) :
    ((a.operate op).say message).Consistent code :=
  ⟨h.session.gentle gentle, h.first, h.last⟩

theorem Consistent.togglePlaying (h : a.Consistent code) : a.togglePlaying.Consistent code := by
  unfold App.togglePlaying
  split
  · exact h.operated rfl "Paused"
  · exact h.operated rfl "Playing..."

theorem Consistent.selectTest (h : a.Consistent code) (place : Nat → Nat) :
    (a.selectTest place).Consistent code := by
  unfold App.selectTest
  dsimp only
  split
  · exact h
  · split
    · exact h.operated rfl _
    · exact h

theorem Consistent.moveUp (h : a.Consistent code) : a.moveUp.Consistent code := by
  have last := h.last
  unfold App.moveUp
  cases a.focus with
  | source =>
      refine ⟨h.session, Nat.le_max_left _ _, ?_⟩
      change max 1 (a.cursorLine - 1) ≤ _
      omega
  | scenarios => exact h.selectTest _
  | bindings => exact ⟨h.session, h.first, h.last⟩
  | terminal => exact ⟨h.session, h.first, h.last⟩

theorem Consistent.moveDown (h : a.Consistent code) : a.moveDown.Consistent code := by
  have first := h.first
  have count : a.lineCount = max 1 (Text.lines code).length := by
    rw [lineCount, h.session.code]
  unfold App.moveDown
  cases a.focus with
  | source =>
      refine ⟨h.session, ?_, ?_⟩
      · change 1 ≤ min (a.cursorLine + 1) a.lineCount
        omega
      · change min (a.cursorLine + 1) a.lineCount ≤ _
        omega
  | scenarios => exact h.selectTest _
  | bindings => exact ⟨h.session, h.first, h.last⟩
  | terminal => exact ⟨h.session, h.first, h.last⟩

theorem Consistent.runCode (h : a.Consistent code) (now : Int) :
    (a.runCode now).Consistent code := by
  have run : (a.session.perform (.runCode now)).Steered code := h.session.gentle rfl
  exact ⟨run, h.first, h.last⟩

theorem Consistent.pressChar (h : a.Consistent code) (now : Int) (c : Char) :
    (a.pressChar now c).Consistent code := by
  unfold App.pressChar
  split
  · exact ⟨h.session, h.first, h.last⟩
  · exact ⟨h.session, h.first, h.last⟩
  · exact h.togglePlaying
  · exact h.runCode now
  · exact (h.goTo .goToPreviousBreakpoint rfl).consistent
  · exact (h.goTo .goToNextBreakpoint rfl).consistent
  · exact h.operated rfl _
  · exact h.operated rfl _
  · exact h

theorem Consistent.jumpKey (h : a.Consistent code) (now : Int) {key : Key}
    (takes : key.takesControl = true) : a.Controlled code (a.press now key) := by
  cases key with
  | left => exact (h.goTo .goToPreviousFrame rfl).beside rfl rfl
  | right => exact (h.goTo .goToNextFrame rfl).beside rfl rfl
  | home => exact (h.goTo (.setCurrentTime 0 .nearest true) rfl).beside rfl rfl
  | backspace => exact (h.goTo (.setCurrentTime 0 .nearest true) rfl).beside rfl rfl
  | last => exact h.goToEnd
  | enter => exact h.goToEnd
  | char c =>
      simp only [Key.takesControl, Bool.or_eq_true, decide_eq_true_eq] at takes
      rcases takes with rfl | rfl
      · exact h.goTo .goToPreviousBreakpoint rfl
      · exact h.goTo .goToNextBreakpoint rfl
  | _ => cases takes

theorem Consistent.press (h : a.Consistent code) (now : Int) (key : Key) :
    (a.press now key).Consistent code := by
  cases takes : key.takesControl with
  | true => exact (h.jumpKey now takes).consistent
  | false =>
      cases key with
      | tab => exact ⟨h.session, h.first, h.last⟩
      | backTab => exact ⟨h.session, h.first, h.last⟩
      | up => exact h.moveUp
      | down => exact h.moveDown
      | escape => exact h
      | char c => exact h.pressChar now c
      | _ => cases takes

theorem Consistent.react (h : a.Consistent code) (event : Event τ) :
    (a.react event).Consistent code := by
  cases event with
  | key now key => exact h.press now key
  | tick elapsed =>
      unfold App.react App.tick
      dsimp only
      split
      · exact h.gentle rfl
      · exact h

theorem Consistent.reactAll (h : a.Consistent code) (events : List (Event τ)) :
    (events.foldl App.react a).Consistent code := by
  induction events generalizing a with
  | nil => exact h
  | cons event rest ih => exact ih (h.react event)

/-- Whatever reaches an application that was just started: its cursor is on a line of the source,
playback runs exactly if the clock of the test that is shown does, which has not ended then, and a
key that goes to another place stops the playback, so that tests wait to be played if there was
any. -/
theorem keys_keep_control (language : Language) (code : String)
    (choices : List (Session.Choice τ)) (events : List (Event τ)) :
    let a := events.foldl react (ofSession (choices.foldl Session.choose (.ofCode language code)))
    (1 ≤ a.cursorLine ∧ a.cursorLine ≤ max 1 (Text.lines code).length) ∧
      (a.isPlaying = true → ∃ r, a.session.currentResult? = some r ∧
        r.clock.paused = false ∧ r.clock.completed = false) ∧
      (a.isPlaying = false → ∀ r, a.session.currentResult? = some r → r.clock.paused = true) ∧
      ∀ now key, key.takesControl = true → (a.press now key).isPlaying = false ∧
        (a.isPlaying = true → (a.press now key).session.view.playsOnTestChange = false) := by
  intro a
  have begun := consistent_ofSession (Session.steered_chosen language code choices)
  have h : a.Consistent code := begun.reactAll events
  refine ⟨⟨h.first, h.last⟩, ?_, ?_, ?_⟩
  · intro playing
    obtain ⟨c, shown, lasts⟩ := h.session.lasts playing
    obtain ⟨r, found, rfl⟩ := Option.map_eq_some_iff.mp shown
    have paused := (h.session.tuned.attended found).paused
    have plays : a.session.view.isPlaying = true := playing
    rw [plays] at paused
    exact ⟨r, found, paused, lasts⟩
  · intro stopped r found
    have paused := (h.session.tuned.attended found).paused
    have stands : a.session.view.isPlaying = false := stopped
    rw [stands] at paused
    exact paused
  · intro now key takes
    have gone := h.jumpKey now takes
    exact ⟨gone.stopped, gone.waits⟩

/-- A run is played while the cursor is moved, and a key that goes back stops it. -/
theorem going_back_stops_playback :
    let begun : Session Float :=
      ([] : List (Session.Choice Float)).foldl Session.choose (.ofCode .jikiScript "log 1\nlog 2")
    let a := [.key 0 (.char 'r'), .tick 0, .key 0 .down, .key 0 .down].foldl react (ofSession begun)
    a.cursorLine = 2 ∧ a.isPlaying = true ∧
      a.cursorLine ≤ max 1 (Text.lines "log 1\nlog 2").length ∧
      (∃ r, a.session.currentResult? = some r ∧ r.clock.paused = false) ∧
      (a.press 0 .left).isPlaying = false ∧
      (a.press 0 .left).session.view.playsOnTestChange = false := by
  intro begun a
  have cursor : a.cursorLine = 2 := by decide +kernel
  have playing : a.isPlaying = true := by decide +kernel
  obtain ⟨⟨-, last⟩, runs, -, keys⟩ := keys_keep_control .jikiScript "log 1\nlog 2" []
    [.key 0 (.char 'r'), .tick (0 : Float), .key 0 .down, .key 0 .down]
  obtain ⟨r, found, paused, -⟩ := runs playing
  obtain ⟨stopped, waits⟩ := keys 0 .left rfl
  exact ⟨cursor, playing, last, ⟨r, found, paused⟩, stopped, waits playing⟩

end App
end Walkthrough
