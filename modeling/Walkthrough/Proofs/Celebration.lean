import Walkthrough.Proofs.Completion
import Walkthrough.Proofs.Edits

/-! Success is celebrated once. Results in which every test passed put the spotlight on if they are
the first such results, and the end of a playback shows the dialogue if none was shown before. What
a session says of success changes in these two ways only, and the invariant of the two ways keeps
the spotlight from coming back. -/

namespace Walkthrough

variable {τ : Type}

def Signal.isDialogue : Signal → Bool
  | .dialogue _ => true
  | .sound _ => false

/-- What is said of success, and the dialogues shown so far. -/
structure Success where
  allPassed : Bool
  hasEverPassed : Bool
  wasShown : Bool
  isSpotlightOn : Bool
  dialogues : List Signal

namespace Success

variable {u : Success}

def isDue (u : Success) : Bool :=
  u.allPassed && !u.wasShown

def renew (u : Success) (passed : Bool) : Success :=
  { u with
    allPassed := passed
    hasEverPassed := u.hasEverPassed || passed
    isSpotlightOn := passed && !u.hasEverPassed }

def celebrate (u : Success) : Success :=
  { u with
    wasShown := u.wasShown || u.allPassed
    isSpotlightOn := u.isSpotlightOn && !u.isDue
    dialogues := u.dialogues ++ if u.isDue then [.exerciseSolved] else [] }

theorem celebrate_of_not_due (due : u.isDue = false) : u.celebrate = u := by
  have shown : (u.wasShown || u.allPassed) = u.wasShown := by
    unfold isDue at due
    revert due
    cases u.wasShown <;> cases u.allPassed <;> decide
  simp [celebrate, due, shown]

theorem celebrate_celebrate (u : Success) : u.celebrate.celebrate = u.celebrate := by
  apply celebrate_of_not_due
  simp only [celebrate, isDue]
  cases u.wasShown <;> cases u.allPassed <;> rfl

/-- What is said of success hangs together. -/
structure Sound (u : Success) : Prop where
  passed : u.allPassed = true → u.hasEverPassed = true
  shown : u.wasShown = true → u.hasEverPassed = true
  lit : u.isSpotlightOn = true → u.allPassed = true ∧ u.wasShown = false
  dialogues : u.dialogues = if u.wasShown then [.exerciseSolved] else []

theorem Sound.renew (h : u.Sound) (passed : Bool) : (u.renew passed).Sound := by
  constructor
  · intro all
    simp only [Success.renew] at all ⊢
    rw [all, Bool.or_true]
  · intro shown
    simp only [Success.renew] at shown ⊢
    rw [h.shown shown, Bool.true_or]
  · intro lit
    obtain ⟨all, first⟩ : passed = true ∧ u.hasEverPassed = false := by
      simpa [Success.renew] using lit
    refine ⟨all, Bool.eq_false_iff.mpr ?_⟩
    intro shown
    rw [h.shown shown] at first
    cases first
  · exact h.dialogues

theorem Sound.celebrate (h : u.Sound) : u.celebrate.Sound := by
  cases due : u.isDue with
  | false =>
      rw [celebrate_of_not_due due]
      exact h
  | true =>
      obtain ⟨all, unseen⟩ : u.allPassed = true ∧ u.wasShown = false := by
        simpa [isDue] using due
      have none : u.dialogues = [] := by simpa [unseen] using h.dialogues
      constructor
      · exact h.passed
      · intro _
        exact h.passed all
      · intro lit
        simp [Success.celebrate, due] at lit
      · simp [Success.celebrate, due, all, none]

end Success

theorem Clock.completed_of_told [ClockTime τ] {c : Clock τ} {elapsed time : τ}
    (told : .completed time ∈ (c.advance elapsed).2) : (c.advance elapsed).1.completed = true := by
  rcases c.advance_cases elapsed with ⟨-, ran⟩ | ⟨-, ran⟩ | ⟨-, ran⟩
  · rw [ran] at told
    cases told
  · rw [ran] at told
    cases List.eq_of_mem_replicate told
  · rw [ran]

theorem View.allTestsPassed_eq {v : View} {results : TestResults τ}
    (tests : v.tests = results.map .ofResult) : v.allTestsPassed = results.allPassed := by
  simp [allTestsPassed, tests, TestResults.allPassed, TestSummary.ofResult, Function.comp_def]

def View.success (v : View) (dialogues : List Signal) : Success :=
  ⟨v.allTestsPassed, v.hasEverPassed, v.wasSuccessShown, v.isSpotlightOn, dialogues⟩

theorem View.success_withFrame (v : View) (frames : List Frame) (index : Nat) :
    (v.withFrame frames index).success = v.success := by
  unfold withFrame
  split <;> rfl

namespace Draft

variable {d d' : Draft τ}

/-- The second draft says of success what the first one says, and keeps nothing pending. -/
structure Quiet (d d' : Draft τ) : Prop where
  success : d'.view.success = d.view.success
  acted : d.pending = [] → d'.pending = []

theorem Quiet.refl (d : Draft τ) : d.Quiet d :=
  ⟨rfl, id⟩

theorem Quiet.trans {d'' : Draft τ} (first : d.Quiet d') (second : d'.Quiet d'') : d.Quiet d'' :=
  ⟨second.success.trans first.success, second.acted ∘ first.acted⟩

theorem quiet_modifyClock (d : Draft τ) (f : Clock τ → Clock τ) : d.Quiet (d.modifyClock f) := by
  constructor
  · rw [view_modifyClock]
  · rw [pending_modifyClock]
    exact id

theorem quiet_goTo {time : Micros} {lookup : FrameLookup} {force : Bool}
    (gone : d.goTo? time lookup force = some d') : d.Quiet d' := by
  unfold goTo? at gone
  split at gone
  · cases gone
  · split at gone
    · cases gone
    · dsimp only at gone
      split at gone
      · cases gone
        exact ⟨View.success_withFrame _ _ _, id⟩
      · cases gone
        exact ⟨rfl, id⟩

theorem quiet_goToIfAny (d : Draft τ) (time : Micros) (lookup : FrameLookup) (force : Bool) :
    d.Quiet ((d.goTo? time lookup force).getD d) := by
  cases gone : d.goTo? time lookup force with
  | none => exact .refl d
  | some d' => exact quiet_goTo gone

theorem quiet_stopPlaying (d : Draft τ) : d.Quiet d.stopPlaying := by
  have still : d.Quiet { d with view := { d.view with isPlaying := false } } := ⟨rfl, id⟩
  exact still.trans (quiet_modifyClock _ Clock.pause)

theorem quiet_detach (d : Draft τ) : d.Quiet d.detach :=
  ⟨(quiet_modifyClock d _).success, fun _ => rfl⟩

section Playback

variable [ClockTime τ]

theorem quiet_startPlaying (d : Draft τ) : d.Quiet d.startPlaying := by
  unfold startPlaying
  split
  · exact .refl d
  · extract_lets isOver begun note
    have again : d.Quiet begun := by
      unfold begun
      split
      · exact quiet_goToIfAny d 0 .exact false
      · exact .refl d
    refine Quiet.trans ?_ (quiet_modifyClock _ Clock.play)
    exact ⟨again.success, again.acted⟩

theorem quiet_showTest {slug : String} (shown : d.showTest? slug = some d') : d.Quiet d' := by
  unfold showTest? at shown
  split at shown
  · cases shown
  · split at shown
    · cases shown
    · extract_lets left _ view start time clocked begun at shown
      have turned : left.Quiet { left with view } := ⟨rfl, id⟩
      have heard : Quiet { left with view } clocked := quiet_modifyClock _ _
      have moved : d.Quiet begun :=
        ((d.quiet_detach.trans turned).trans heard).trans (quiet_goToIfAny _ time .nearest true)
      cases shown
      split
      · exact moved.trans begun.quiet_startPlaying
      · exact moved

theorem quiet_pause (d : Draft τ) : d.Quiet d.pause := by
  unfold pause
  extract_lets stopped _ kept nearest snapped _ note _
  have held : stopped.Quiet kept := ⟨rfl, id⟩
  have moved : kept.Quiet snapped := by
    unfold snapped
    split
    · next frame _ =>
        exact (quiet_goToIfAny kept frame.time .exact true).trans (quiet_modifyClock _ _)
    · exact .refl kept
  have told : snapped.Quiet { snapped with view := { snapped.view with note } } := ⟨rfl, id⟩
  exact ((d.quiet_stopPlaying.trans held).trans moved).trans told

theorem success_withResults (d : Draft τ) (results : TestResults τ) (autoPlay : Bool)
    (dialogues : List Signal) : (d.withResults results autoPlay).view.success dialogues =
      (d.view.success dialogues).renew results.allPassed ∧
        (d.withResults results autoPlay).pending = [] := by
  unfold withResults
  extract_lets left passed _ cleared view fresh
  have renewed : fresh.view.success dialogues = (d.view.success dialogues).renew passed := by
    have tests : fresh.view.allTestsPassed = passed := View.allTestsPassed_eq rfl
    have ever : left.view.hasEverPassed = d.view.hasEverPassed :=
      congrArg (fun u => (u dialogues).hasEverPassed) d.quiet_detach.success
    have shown : left.view.wasSuccessShown = d.view.wasSuccessShown :=
      congrArg (fun u => (u dialogues).wasShown) d.quiet_detach.success
    simp only [View.success, Success.renew, tests, ← ever, ← shown]
    rfl
  cases results.head? with
  | none => exact ⟨renewed, rfl⟩
  | some first =>
      dsimp only
      cases shown : fresh.showTest? first.slug with
      | none => exact ⟨renewed, rfl⟩
      | some d' =>
          have quiet := quiet_showTest shown
          refine ⟨?_, quiet.acted rfl⟩
          rw [Option.getD_some, quiet.success]
          exact renewed

end Playback

end Draft

namespace Session

variable {s s' : Session τ}

def dialogues (s : Session τ) : List Signal :=
  s.signals.filter Signal.isDialogue

def success (s : Session τ) : Success :=
  s.view.success s.dialogues

structure Quiet (s s' : Session τ) : Prop where
  success : s'.success = s.success
  acted : s.pending = [] → s'.pending = []

theorem Quiet.refl (s : Session τ) : s.Quiet s :=
  ⟨rfl, id⟩

theorem Quiet.trans {s'' : Session τ} (first : s.Quiet s') (second : s'.Quiet s'') : s.Quiet s'' :=
  ⟨second.success.trans first.success, second.acted ∘ first.acted⟩

theorem success_commit (s : Session τ) (d : Draft τ) :
    (s.commit d).success = d.view.success s.dialogues := by
  have kept : (s.commit d).dialogues = s.dialogues := rfl
  rw [success, view_commit, kept]

theorem success_signal {signals : List Signal} (sounds : ∀ x ∈ signals, x.isDialogue = false) :
    (s.signal signals).success = s.success := by
  have none : signals.filter Signal.isDialogue = [] := by simpa using sounds
  have same : (s.signal signals).dialogues = s.dialogues := by
    simp [dialogues, signal, none]
  rw [success, same]
  rfl

theorem quiet_commit {d : Draft τ} (h : s.draft.Quiet d) : s.Quiet (s.commit d) := by
  refine ⟨?_, h.acted⟩
  rw [success_commit]
  exact congrFun h.success s.dialogues

theorem quiet_updateView {f : View → View} (same : (f s.view).success = s.view.success) :
    s.Quiet (s.updateView f) :=
  quiet_commit ⟨same, id⟩

theorem quiet_syncTasks (s : Session τ) (d : Draft τ) : d.Quiet (s.syncTasks d) := by
  unfold syncTasks
  split
  · exact ⟨rfl, id⟩
  · exact .refl d

theorem quiet_updateTasks (s : Session τ) (results : TestResults τ) (now : Int) :
    s.Quiet (s.updateTasks results now).1 := by
  unfold updateTasks
  split
  · exact ⟨rfl, fun acted => acted⟩
  · exact .refl s

theorem quiet_setCurrentTask (s : Session τ) (id : String) : s.Quiet (s.setCurrentTask id) := by
  unfold setCurrentTask
  split
  · next book _ =>
      have turned : s.Quiet { s with tasks := some book } := ⟨rfl, fun acted => acted⟩
      exact turned.trans (quiet_commit (quiet_syncTasks { s with tasks := some book } s.draft))
  · exact .refl s

theorem success_completePlayback (s : Session τ) :
    s.completePlayback.success = s.success.celebrate := by
  have celebrated := s.celebrated_completePlayback
  have passed : s.completePlayback.view.allTestsPassed = s.view.allTestsPassed := by
    simp only [View.allTestsPassed, celebrated.tests]
  have ever : s.completePlayback.view.hasEverPassed = s.view.hasEverPassed := by
    have stopped := congrArg (fun u => (u []).hasEverPassed) s.draft.quiet_stopPlaying.success
    unfold completePlayback
    dsimp only
    split
    · exact (congrArg View.hasEverPassed (view_commit s _)).trans stopped
    · exact (congrArg View.hasEverPassed (view_commit s _)).trans stopped
  have due : s.success.isDue = s.isDue := rfl
  have dialogues : s.completePlayback.dialogues =
      s.dialogues ++ if s.isDue then [.exerciseSolved] else [] := by
    unfold Session.dialogues
    rw [celebrated.signals, List.filter_append]
    cases s.isDue <;> rfl
  simp only [success, View.success, passed, ever, celebrated.shown, celebrated.spotlight, dialogues]
  simp only [Success.celebrate, ← due]
  rfl

theorem pending_completePlayback (s : Session τ) : s.completePlayback.pending = s.pending := by
  obtain ⟨view, draft, -⟩ := s.draft_completePlayback
  exact (congrArg Draft.pending draft).trans (Draft.pending_modifyClock _ _)

section Playback

variable [ClockTime τ] {op : Operation τ}

theorem Edit.quiet {d : Draft τ} (edit : s.Edit op d) : s.draft.Quiet d := by
  cases edit with
  | setCode code =>
      refine ⟨?_, id⟩
      dsimp only
      split <;> rfl
  | setLines => exact ⟨rfl, id⟩
  | showTest shown => exact Draft.quiet_showTest shown
  | goTo gone => exact (Draft.quiet_goTo gone).trans (Draft.quiet_modifyClock _ _)
  | step _ _ gone => exact (Draft.quiet_goTo gone).trans (Draft.quiet_modifyClock _ _)
  | startPlaying => exact s.draft.quiet_startPlaying
  | stopPlaying => exact s.draft.quiet_stopPlaying
  | pause => exact s.draft.quiet_pause

theorem quiet_perform (edits : op.edits = true) : s.Quiet (s.perform op) := by
  rcases perform_edit edits with same | ⟨d, edit, committed⟩
  · rw [same]
    exact .refl s
  · rw [committed]
    exact quiet_commit edit.quiet

theorem quiet_choose (s : Session τ) (choice : Choice τ) : s.Quiet (s.choose choice) := by
  cases choice with
  | features features => exact ⟨rfl, id⟩
  | watcher => exact ⟨rfl, id⟩
  | playback autoPlay speed =>
      let wished := { s with autoPlay, speed := if 0 < speed then speed else 1 }
      have wish : s.Quiet wished := ⟨rfl, id⟩
      exact wish.trans (quiet_commit ⟨rfl, id⟩)
  | exercise exercise =>
      let book := TaskBook.ofExercise exercise
      let taken := { s with exercise := some exercise, tasks := some book }
      have taking : s.Quiet taken := ⟨rfl, id⟩
      have named : taken.draft.Quiet { taken.draft with
        view := { taken.view with exerciseSlug := some exercise.slug } } := ⟨rfl, id⟩
      exact taking.trans (quiet_commit (named.trans (quiet_syncTasks taken _)))

/-! ### The end of a playback -/

theorem quiet_handle (s : Session τ) (time : τ) : s.Quiet (s.handle (.moved time)) := by
  unfold handle
  dsimp only
  cases gone : s.draft.goTo? (ClockTime.toMicros time) .exact false with
  | none => exact .refl s
  | some d => exact quiet_commit (Draft.quiet_goTo gone)

/-- However often a clock tells of its end, that is celebrated once. -/
theorem success_handleAll (s : Session τ) (events : List (ClockEvent τ)) :
    (events.foldl handle s).success = s.success ∨
      (∃ time, .completed time ∈ events) ∧
        (events.foldl handle s).success = s.success.celebrate := by
  induction events generalizing s with
  | nil => exact Or.inl rfl
  | cons event rest ih =>
      rw [List.foldl_cons]
      cases event with
      | moved time =>
          have quiet := (s.quiet_handle time).success
          refine (ih _).imp (fun same => same.trans quiet) ?_
          rintro ⟨⟨last, member⟩, celebrated⟩
          rw [quiet] at celebrated
          exact ⟨⟨last, List.mem_cons_of_mem _ member⟩, celebrated⟩
      | completed time =>
          refine Or.inr ⟨⟨time, List.mem_cons_self⟩, ?_⟩
          have ended : (s.handle (.completed time)).success = s.success.celebrate :=
            s.success_completePlayback
          rcases ih (s.handle (.completed time)) with same | ⟨-, celebrated⟩
          · exact same.trans ended
          · rw [celebrated, ended, Success.celebrate_celebrate]

theorem pending_handleAll (s : Session τ) (events : List (ClockEvent τ)) (acted : s.pending = []) :
    (events.foldl handle s).pending = [] := by
  refine List.foldlRecOn (motive := fun s => s.pending = []) events handle acted ?_
  intro s acted event _
  cases event with
  | moved time => exact (s.quiet_handle time).acted acted
  | completed time => exact s.pending_completePlayback.trans acted

theorem currentTest_handleAll (s : Session τ) (events : List (ClockEvent τ)) :
    (events.foldl handle s).view.currentTest = s.view.currentTest := by
  refine List.foldlRecOn (motive := fun s' => s'.view.currentTest = s.view.currentTest) events
    handle rfl ?_
  intro s' same event _
  cases event with
  | moved time => exact (congrArg (·.1) (s'.moved_handle time).draft.playback).trans same
  | completed time =>
      obtain ⟨view, draft, test, -⟩ := s'.draft_completePlayback
      exact ((congrArg (fun d => d.view.currentTest) draft).trans test).trans same

theorem HasEnded.handleAll (h : s.HasEnded) (events : List (ClockEvent τ)) :
    (events.foldl handle s).HasEnded := by
  refine List.foldlRecOn (motive := HasEnded) events handle h ?_
  intro s' ended event _
  cases event with
  | moved time => exact (s'.moved_handle time).hasEnded ended
  | completed time => exact ended.completePlayback

/-- The operation is a tick in which the clock of the test that is shown ends. -/
structure EndsClock (s : Session τ) (op : Operation τ) : Prop where
  ticks : ∃ elapsed, op = .tick elapsed
  stays : (s.perform op).view.currentTest = s.view.currentTest
  lasts : ∃ r, s.currentResult? = some r ∧ r.clock.completed = false
  ended : ∃ r, (s.perform op).currentResult? = some r ∧ r.clock.completed = true

theorem EndsClock.silent (h : s.EndsClock op) : op.bringsResults = false := by
  obtain ⟨elapsed, rfl⟩ := h.ticks
  rfl

/-- What one operation can change of what is said of success. -/
inductive SuccessStep (s : Session τ) (op : Operation τ) : Prop
  | quiet (silent : op.bringsResults = false) (same : (s.perform op).success = s.success)
  | renewed (brings : op.bringsResults = true) (passed : Bool)
      (renewed : (s.perform op).success = s.success.renew passed)
  | celebrated (ends : s.EndsClock op) (shown : (s.perform op).success = s.success.celebrate)

theorem successStep_tick (acted : s.pending = []) (elapsed : τ) :
    s.SuccessStep (.tick elapsed) := by
  cases found : s.currentResult? with
  | none => exact .quiet rfl (congrArg success (tick_of_none acted found elapsed))
  | some r =>
      cases lasts : r.clock.completed with
      | true => exact .quiet rfl (congrArg success (tick_of_completed acted found lasts elapsed))
      | false =>
          have ticked := tick_eq acted found elapsed
          generalize gone : r.clock.advance (elapsed * s.speed) = advanced at ticked
          rcases (s.withClock advanced.1).success_handleAll advanced.2 with
            same | ⟨⟨time, told⟩, celebrated⟩
          · exact .quiet rfl ((congrArg success ticked).trans same)
          · have finished : advanced.1.completed = true := by
              rw [← gone] at told ⊢
              exact Clock.completed_of_told told
            have ended : (s.withClock advanced.1).HasEnded :=
              ⟨_, clock?_withClock found _, finished⟩
            refine .celebrated ⟨⟨elapsed, rfl⟩, ?_, ⟨r, found, lasts⟩, ?_⟩ ?_
            · exact (congrArg (fun s => s.view.currentTest) ticked).trans
                (currentTest_handleAll _ advanced.2)
            · have still : (s.tick elapsed).HasEnded := ticked ▸ ended.handleAll advanced.2
              exact still.currentResult
            · exact (congrArg success ticked).trans celebrated

theorem success_setResults (s : Session τ) (results : TestResults τ) :
    (s.setResults results).success = s.success.renew results.allPassed ∧
      (s.setResults results).pending = [] := by
  rw [setResults, success_commit]
  exact s.draft.success_withResults results s.autoPlay s.dialogues

theorem success_runCode (s : Session τ) (now : Int) : ∃ passed,
    (s.runCode now).success = s.success.renew passed ∧ (s.runCode now).pending = [] := by
  unfold runCode
  extract_lets running results
  rcases updated : running.updateTasks results now with ⟨worked, ids⟩
  have begun : s.Quiet running := quiet_updateView rfl
  have same : s.Quiet worked := by
    have kept := running.quiet_updateTasks results now
    rw [updated] at kept
    exact begun.trans kept
  obtain ⟨renewed, acted⟩ :=
    worked.draft.success_withResults results worked.autoPlay worked.dialogues
  have synced := worked.quiet_syncTasks (worked.draft.withResults results worked.autoPlay)
  refine ⟨results.allPassed, ?_, synced.acted acted⟩
  rw [success_signal (by simp [Signal.taskCompleted, Signal.isDialogue]), success_commit,
    synced.success, ← same.success]
  exact renewed

theorem successStep_perform (acted : s.pending = []) (op : Operation τ) :
    (s.perform op).pending = [] ∧ s.SuccessStep op := by
  have quiet (silent : op.bringsResults = false) (h : s.Quiet (s.perform op)) :
      (s.perform op).pending = [] ∧ s.SuccessStep op :=
    ⟨h.acted acted, .quiet silent h.success⟩
  cases op with
  | runCode now =>
      obtain ⟨passed, renewed, acted⟩ := s.success_runCode now
      exact ⟨acted, .renewed rfl passed renewed⟩
  | setResults results =>
      obtain ⟨renewed, acted⟩ := s.success_setResults results
      exact ⟨acted, .renewed rfl results.allPassed renewed⟩
  | tick elapsed => exact ⟨pending_handleAll _ _ rfl, successStep_tick acted elapsed⟩
  | setCurrentTask id => exact quiet rfl (s.quiet_setCurrentTask id)
  | _ => exact quiet rfl (quiet_perform rfl)

/-! ### Over a whole run -/

/-- Nothing more is to be told, and what is said of success is so. -/
structure Sincere (s : Session τ) : Prop where
  acted : s.pending = []
  sound : s.success.Sound
  coherent : ∃ ran, s.Coherent ran

omit [ClockTime τ] in
theorem Sincere.allPassed (h : s.Sincere) : s.view.allTestsPassed = s.results.allPassed := by
  obtain ⟨ran, coherent⟩ := h.coherent
  exact View.allTestsPassed_eq coherent.placed.tests

theorem sincere_chosen (language : Language) (code : String) (choices : List (Choice τ)) :
    (choices.foldl choose (ofCode language code)).Sincere ∧
      (choices.foldl choose (ofCode language code)).view.hasEverPassed = false := by
  refine List.foldlRecOn (motive := fun s => s.Sincere ∧ s.view.hasEverPassed = false) choices
    choose ?_ ?_
  · have sound : (ofCode language code : Session τ).success.Sound := ⟨nofun, nofun, nofun, rfl⟩
    exact ⟨⟨rfl, sound, false, coherent_ofCode language code⟩, rfl⟩
  · rintro s ⟨⟨acted, sound, ran, coherent⟩, ever⟩ choice -
    have quiet := s.quiet_choose choice
    refine ⟨⟨quiet.acted acted, ?_, ran, coherent.choose choice⟩, ?_⟩
    · rw [quiet.success]
      exact sound
    · exact (congrArg Success.hasEverPassed quiet.success).trans ever

theorem Sincere.perform (h : s.Sincere) (op : Operation τ) : (s.perform op).Sincere := by
  obtain ⟨acted, step⟩ := successStep_perform h.acted op
  obtain ⟨ran, coherent⟩ := h.coherent
  refine ⟨acted, ?_, _, coherent.perform op⟩
  cases step with
  | quiet _ same =>
      rw [same]
      exact h.sound
  | renewed _ passed renewed =>
      rw [renewed]
      exact h.sound.renew passed
  | celebrated _ shown =>
      rw [shown]
      exact h.sound.celebrate

theorem Sincere.performAll (h : s.Sincere) (ops : List (Operation τ)) :
    (ops.foldl Session.perform s).Sincere :=
  List.foldlRecOn (motive := Sincere) ops Session.perform h fun _ h op _ => h.perform op

def bringsSuccess (s : Session τ) (op : Operation τ) : Bool :=
  op.bringsResults && (s.perform op).results.allPassed

def hasPassed (s : Session τ) : List (Operation τ) → Bool
  | [] => false
  | op :: rest => s.bringsSuccess op || (s.perform op).hasPassed rest

theorem Sincere.hasEverPassed_perform (h : s.Sincere) (op : Operation τ) :
    (s.perform op).view.hasEverPassed = (s.view.hasEverPassed || s.bringsSuccess op) := by
  have passed := (h.perform op).allPassed
  unfold bringsSuccess
  rw [← passed]
  cases (successStep_perform h.acted op).2 with
  | quiet silent same =>
      rw [silent, Bool.false_and, Bool.or_false]
      exact congrArg Success.hasEverPassed same
  | renewed brings passed renewed =>
      have all : (s.perform op).view.allTestsPassed = passed := congrArg Success.allPassed renewed
      rw [brings, Bool.true_and, all]
      exact congrArg Success.hasEverPassed renewed
  | celebrated ends shown =>
      rw [ends.silent, Bool.false_and, Bool.or_false]
      exact congrArg Success.hasEverPassed shown

theorem Sincere.hasEverPassed (h : s.Sincere) (ops : List (Operation τ)) :
    (ops.foldl Session.perform s).view.hasEverPassed =
      (s.view.hasEverPassed || s.hasPassed ops) := by
  induction ops generalizing s with
  | nil => rw [hasPassed, Bool.or_false, List.foldl_nil]
  | cons op rest ih =>
      rw [List.foldl_cons, ih (h.perform op), h.hasEverPassed_perform, hasPassed, Bool.or_assoc]

def lights (s : Session τ) (op : Operation τ) : Bool :=
  !s.view.isSpotlightOn && (s.perform op).view.isSpotlightOn

def lightings (s : Session τ) : List (Operation τ) → Nat
  | [] => 0
  | op :: rest => (s.lights op).toNat + (s.perform op).lightings rest

theorem Sincere.lights_eq (h : s.Sincere) (op : Operation τ) :
    s.lights op = (!s.view.hasEverPassed && s.bringsSuccess op) := by
  have passed := (h.perform op).allPassed
  unfold bringsSuccess lights
  rw [← passed]
  cases (successStep_perform h.acted op).2 with
  | quiet silent same =>
      have lit : (s.perform op).view.isSpotlightOn = s.view.isSpotlightOn :=
        congrArg Success.isSpotlightOn same
      rw [lit, silent, Bool.false_and, Bool.and_false, Bool.not_and_self]
  | renewed brings passed renewed =>
      have all : (s.perform op).view.allTestsPassed = passed := congrArg Success.allPassed renewed
      have lit : (s.perform op).view.isSpotlightOn = (passed && !s.view.hasEverPassed) :=
        congrArg Success.isSpotlightOn renewed
      rw [lit, brings, all, Bool.true_and, Bool.and_comm passed]
      cases on : s.view.isSpotlightOn with
      | false => rw [Bool.not_false, Bool.true_and]
      | true =>
          have ever : s.view.hasEverPassed = true := h.sound.passed (h.sound.lit on).1
          rw [ever]
          rfl
  | celebrated ends shown =>
      have lit : (s.perform op).view.isSpotlightOn = (s.view.isSpotlightOn && !s.success.isDue) :=
        congrArg Success.isSpotlightOn shown
      rw [lit, ends.silent, Bool.false_and, Bool.and_false, ← Bool.and_assoc, Bool.not_and_self,
        Bool.false_and]

theorem Sincere.lightings_le (h : s.Sincere) (ops : List (Operation τ)) :
    s.lightings ops ≤ (!s.view.hasEverPassed).toNat := by
  induction ops generalizing s with
  | nil => exact Nat.zero_le _
  | cons op rest ih =>
      have later := ih (h.perform op)
      rw [h.hasEverPassed_perform] at later
      rw [lightings, h.lights_eq]
      revert later
      cases s.view.hasEverPassed <;> cases s.bringsSuccess op <;> simp

theorem Sincere.dialogue (h : s.Sincere) {op : Operation τ}
    (told : (s.perform op).dialogues ≠ s.dialogues) :
    s.EndsClock op ∧ s.results.allPassed = true := by
  cases (successStep_perform h.acted op).2 with
  | quiet _ same => exact absurd (congrArg Success.dialogues same) told
  | renewed _ _ renewed => exact absurd (congrArg Success.dialogues renewed) told
  | celebrated ends shown =>
      refine ⟨ends, ?_⟩
      cases due : s.success.isDue with
      | false =>
          rw [Success.celebrate_of_not_due due] at shown
          exact absurd (congrArg Success.dialogues shown) told
      | true =>
          rw [← h.allPassed]
          exact (Bool.and_eq_true_iff.mp due).1

/-- Whatever is asked of a session, and in whatever order, at most one dialogue is shown, and that
by a tick in which the clock of the test that is shown ends while every test has passed. The
spotlight is put on once at most, by the first results in which every test passed; it is on only
while every test of the results has passed, and it is off when a dialogue was shown. -/
theorem success_is_celebrated_once (language : Language) (code : String)
    (choices : List (Choice τ)) (ops : List (Operation τ)) (op : Operation τ) :
    let begun := choices.foldl choose (ofCode language code)
    let s := ops.foldl perform begun
    s.dialogues.length ≤ 1 ∧
      ((s.perform op).dialogues ≠ s.dialogues → s.EndsClock op ∧ s.results.allPassed = true) ∧
      begun.lightings ops ≤ 1 ∧
      (s.lights op = true ↔ begun.hasPassed ops = false ∧ s.bringsSuccess op = true) ∧
      (s.view.isSpotlightOn = true → s.results.allPassed = true) ∧
      (s.dialogues ≠ [] → s.view.isSpotlightOn = false) := by
  intro begun s
  obtain ⟨sincere, never⟩ := sincere_chosen language code choices
  have h : s.Sincere := sincere.performAll ops
  have ever : s.view.hasEverPassed = begun.hasPassed ops := by
    rw [sincere.hasEverPassed ops, never, Bool.false_or]
  have shown : s.dialogues = if s.view.wasSuccessShown then [.exerciseSolved] else [] :=
    h.sound.dialogues
  refine ⟨?_, h.dialogue, ?_, ?_, ?_, ?_⟩
  · rw [shown]
    split
    · exact Nat.le_refl 1
    · exact Nat.zero_le 1
  · exact (sincere.lightings_le ops).trans (Bool.toNat_le _)
  · rw [h.lights_eq, ever, Bool.and_eq_true_iff, Bool.not_eq_true']
  · intro lit
    rw [← h.allPassed]
    exact (h.sound.lit lit).1
  · intro told
    by_contra on
    have lit : s.view.isSpotlightOn = true := Bool.not_eq_false _ ▸ on
    have unseen : s.view.wasSuccessShown = false := (h.sound.lit lit).2
    rw [shown, unseen] at told
    exact told rfl

/-- A run puts the spotlight on, and the end of its playback shows the dialogue and puts it out. -/
theorem two_assignments_are_celebrated :
    let begun : Session Float := ([] : List (Choice Float)).foldl choose
      (ofCode .jikiScript "set a to 1\nset b to 2")
    let s := [.runCode 0].foldl perform begun
    begun.lights (.runCode 0) = true ∧ s.view.isSpotlightOn = true ∧
      s.EndsClock (.tick 10000) ∧ (s.perform (.tick 10000)).dialogues = [.exerciseSolved] ∧
      (s.perform (.tick 10000)).view.isSpotlightOn = false := by
  intro begun s
  have lights : begun.lights (.runCode 0) = true := by decide +kernel
  have lit : s.view.isSpotlightOn = true := by decide +kernel
  have none : s.dialogues = [] := by decide +kernel
  have one : (s.perform (.tick 10000)).dialogues = [.exerciseSolved] := by decide +kernel
  have out : (s.perform (.tick 10000)).view.isSpotlightOn = false := by decide +kernel
  have told : (s.perform (.tick 10000)).dialogues ≠ s.dialogues := by
    rw [one, none]
    exact List.cons_ne_nil _ _
  have once := success_is_celebrated_once .jikiScript "set a to 1\nset b to 2" [] [.runCode 0]
    (.tick (10000 : Float))
  exact ⟨lights, lit, (once.2.1 told).1, one, out⟩

end Playback

end Session
end Walkthrough
