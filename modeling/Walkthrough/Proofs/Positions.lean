import Walkthrough.Proofs.Renewal
import Walkthrough.Proofs.Viewpoints

/-! Every test keeps its own place. A session notes the time of the test that is shown and of no
other, so the time noted for a test is that at which it was shown last since there were results, and
a test that is turned to again is shown at the time at which it was left. -/

namespace Walkthrough

variable {τ : Type}

namespace View

/-- The second view shows the test and the code of the first one, and notes what the first one
notes of all other tests. Where tests wait to be played, they still do. -/
structure Stays (v v' : View) : Prop where
  test : v'.currentTest = v.currentTest
  code : v'.code = v.code
  times : ∀ slug, v.currentTest ≠ some slug → v'.savedTimes.get? slug = v.savedTimes.get? slug
  waits : v.playsOnTestChange = false → v'.playsOnTestChange = false

theorem Stays.refl (v : View) : v.Stays v :=
  ⟨rfl, rfl, fun _ _ => rfl, id⟩

theorem Stays.trans {v v' v'' : View} (first : v.Stays v') (second : v'.Stays v'') :
    v.Stays v'' := by
  refine ⟨second.test.trans first.test, second.code.trans first.code, ?_,
    second.waits ∘ first.waits⟩
  intro slug other
  have apart : v'.currentTest ≠ some slug := by
    rw [first.test]
    exact other
  rw [second.times slug apart, first.times slug other]

theorem stays_note {v : View} {shown : String} (test : v.currentTest = some shown)
    (time now : Micros) :
    v.Stays { v with currentTime := now, savedTimes := v.savedTimes.insert shown time } := by
  refine ⟨rfl, rfl, ?_, id⟩
  intro slug other
  have apart : slug ≠ shown := by
    rintro rfl
    exact other test
  simp [Table.get?_insert, apart]

theorem stays_withFrame (v : View) (frames : List Frame) (index : Nat) :
    v.Stays (v.withFrame frames index) := by
  unfold withFrame
  split
  · exact .refl v
  · exact ⟨rfl, rfl, fun _ _ => rfl, id⟩

/-- The second view shows a test, and notes what the first one notes of all other tests. -/
structure Turns (slug : String) (v v' : View) : Prop where
  test : v'.currentTest = some slug
  code : v'.code = v.code
  times : ∀ other, other ≠ slug → v'.savedTimes.get? other = v.savedTimes.get? other

/-- The time at which a test was shown last, in views of which the latest comes first. -/
def lastShown? (slug : String) : List View → Option Micros
  | [] => none
  | v :: past => if v.currentTest = some slug then some v.currentTime else lastShown? slug past

end View

namespace Draft

variable {d d' : Draft τ}

theorem stays_goTo {time : Micros} {lookup : FrameLookup} {force : Bool}
    (gone : d.goTo? time lookup force = some d') : d.view.Stays d'.view := by
  unfold goTo? at gone
  cases test : d.view.currentTest with
  | none => simp [test] at gone
  | some shown =>
      have noted := View.stays_note test time time
      rw [test] at gone
      dsimp only at gone
      split at gone
      · cases gone
      · split at gone
        · cases gone
          exact noted.trans (View.stays_withFrame _ _ _)
        · cases gone
          exact noted

theorem stays_goToIfAny (d : Draft τ) (time : Micros) (lookup : FrameLookup) (force : Bool) :
    d.view.Stays ((d.goTo? time lookup force).getD d).view := by
  cases gone : d.goTo? time lookup force with
  | none => exact .refl d.view
  | some d' => exact stays_goTo gone

theorem stays_stopPlaying (d : Draft τ) : d.view.Stays d.stopPlaying.view := by
  rw [view_stopPlaying]
  exact ⟨rfl, rfl, fun _ _ => rfl, id⟩

variable [ClockTime τ]

theorem stays_startPlaying (d : Draft τ) : d.view.Stays d.startPlaying.view := by
  rw [startPlaying_eq]
  split
  · exact .refl d.view
  · have rewound : d.view.Stays d.rewound.view := by
      unfold Draft.rewound
      split
      · exact stays_goToIfAny d 0 .exact false
      · exact .refl d.view
    refine rewound.trans ?_
    unfold played
    rw [view_modifyClock]
    exact ⟨rfl, rfl, fun _ _ => rfl, id⟩

theorem stays_opened (d : Draft τ) (slug : String) (time : Micros) :
    (d.turned slug time).view.Stays (d.opened slug time).view := by
  have begun := (d.turned slug time).stays_goToIfAny time .nearest true
  unfold opened
  dsimp only
  split
  · exact begun.trans (stays_startPlaying _)
  · exact begun

theorem currentTime_opened (d : Draft τ) (slug : String) (time : Micros)
    (waits : d.view.playsOnTestChange = false) : (d.opened slug time).view.currentTime = time := by
  have turned := d.view_turned slug time
  have shown : (d.turned slug time).view.currentTest ≠ none := by
    rw [turned]
    exact Option.some_ne_none slug
  have still : (d.turned slug time).view.playsOnTestChange = false := by
    rw [turned]
    exact waits
  have begun := (stays_goToIfAny (d.turned slug time) time .nearest true).waits still
  unfold opened
  dsimp only
  rw [begun, if_neg Bool.false_ne_true]
  exact congrArg Viewpoint.time (viewpoint_goToForced shown time .nearest)

theorem showTest_turns {slug : String} (shown : d.showTest? slug = some d') :
    d.view.Turns slug d'.view := by
  rw [showTest?_eq] at shown
  split at shown
  · cases shown
  · obtain ⟨result, -, rfl⟩ := Option.map_eq_some_iff.mp shown
    have left : d.detach.view = d.view := view_modifyClock _ _
    generalize (d.detach.view.savedTimes.get? slug).getD _ = time
    have stays := d.detach.stays_opened slug time
    have turned := d.detach.view_turned slug time
    rw [turned, left] at stays
    refine ⟨stays.test, stays.code, ?_⟩
    intro other apart
    apply stays.times
    intro same
    exact apart (Option.some.inj same).symm

/-- New results are shown for the same code. What is noted then is the time of the test that is
shown, if any is. -/
theorem withResults_notes (d : Draft τ) (results : TestResults τ) (autoPlay : Bool) :
    (d.withResults results autoPlay).view.code = d.view.code ∧
      ∀ slug, (d.withResults results autoPlay).view.currentTest ≠ some slug →
        (d.withResults results autoPlay).view.savedTimes.get? slug = none := by
  unfold withResults
  extract_lets left _ _ _ _ fresh
  have code : left.view.code = d.view.code := by
    have kept : left.view = d.view := view_modifyClock _ _
    rw [kept]
  have cleared : ∀ slug, fresh.view.savedTimes.get? slug = none := by
    intro slug
    rfl
  cases results.head? with
  | none => exact ⟨code, fun slug _ => cleared slug⟩
  | some first =>
      dsimp only
      cases shown : fresh.showTest? first.slug with
      | none => exact ⟨code, fun slug _ => cleared slug⟩
      | some d' =>
          have turns := showTest_turns shown
          refine ⟨turns.code.trans code, ?_⟩
          intro slug other
          have apart : slug ≠ first.slug := by
            rintro rfl
            exact other turns.test
          exact (turns.times slug apart).trans (cleared slug)

theorem stays_pause (d : Draft τ) : d.view.Stays d.pause.view := by
  unfold pause
  extract_lets stopped _ kept nearest snapped _ note _
  have still : d.view.Stays kept.view := by
    refine (stays_stopPlaying d).trans ?_
    exact ⟨rfl, rfl, fun _ _ => rfl, fun _ => rfl⟩
  have moved : kept.view.Stays snapped.view := by
    unfold snapped
    split
    · next frame _ =>
        rw [view_modifyClock]
        exact stays_goToIfAny kept frame.time .exact true
    · exact .refl _
  have told : snapped.view.Stays { snapped.view with note } := ⟨rfl, rfl, fun _ _ => rfl, id⟩
  exact (still.trans moved).trans told

end Draft

namespace Session

variable {s s' : Session τ}

theorem stays_commit {d : Draft τ} (h : s.view.Stays d.view) : s.view.Stays (s.commit d).view := by
  rw [view_commit]
  exact h

theorem stays_syncTasks (s : Session τ) (d : Draft τ) : d.view.Stays (s.syncTasks d).view := by
  unfold syncTasks
  split
  · exact ⟨rfl, rfl, fun _ _ => rfl, id⟩
  · exact .refl d.view

theorem stays_setCurrentTask (s : Session τ) (id : String) :
    s.view.Stays (s.setCurrentTask id).view := by
  unfold setCurrentTask
  split
  · next book _ => exact stays_commit (stays_syncTasks { s with tasks := some book } s.draft)
  · exact .refl s.view

theorem stays_completePlayback (s : Session τ) : s.view.Stays s.completePlayback.view := by
  have stopped := s.draft.stays_stopPlaying
  unfold completePlayback
  extract_lets d _ view
  split
  · have celebrated : d.view.Stays view := ⟨rfl, rfl, fun _ _ => rfl, id⟩
    exact stays_commit (s := s) (stopped.trans celebrated)
  · exact stays_commit stopped

/-- What an operation does to the test that is shown, to the code and to what is noted, unless it
brings results. -/
inductive Follows : Operation τ → View → View → Prop
  | stays {op : Operation τ} {v v' : View} (h : v.Stays v') : Follows op v v'
  | turns {slug : String} {v v' : View} (h : v.Turns slug v') : Follows (.setCurrentTest slug) v v'
  | edited {code : String} (v : View) (isCodeEdited : Bool) :
      Follows (.setCode code) v { v with code, isCodeEdited }

theorem Follows.times {op : Operation τ} {v v' : View} (follows : Follows op v v') {slug : String}
    (other : v'.currentTest ≠ some slug) : v'.savedTimes.get? slug = v.savedTimes.get? slug := by
  cases follows with
  | stays h =>
      rw [h.test] at other
      exact h.times slug other
  | turns h =>
      apply h.times
      rintro rfl
      exact other h.test
  | edited => rfl

/-- A test that was not shown is not shown afterwards unless it was turned to. -/
theorem Follows.test {op : Operation τ} {v v' : View} (follows : Follows op v v') {slug : String}
    (other : v.currentTest ≠ some slug) (stays : op ≠ .setCurrentTest slug) :
    v'.currentTest ≠ some slug := by
  cases follows with
  | stays h =>
      rw [h.test]
      exact other
  | turns h =>
      rw [h.test]
      intro same
      exact stays (congrArg Operation.setCurrentTest (Option.some.inj same))
  | edited => exact other

variable [ClockTime τ]

theorem stays_handle (s : Session τ) (event : ClockEvent τ) :
    s.view.Stays (s.handle event).view := by
  cases event with
  | completed time => exact s.stays_completePlayback
  | moved time =>
      unfold handle
      dsimp only
      cases gone : s.draft.goTo? (ClockTime.toMicros time) .exact false with
      | none => exact .refl s.view
      | some d => exact stays_commit (Draft.stays_goTo gone)

theorem stays_handleAll (s : Session τ) (events : List (ClockEvent τ)) :
    s.view.Stays (events.foldl handle s).view := by
  induction events generalizing s with
  | nil => exact .refl s.view
  | cons event rest ih => exact (s.stays_handle event).trans (ih _)

theorem stays_tick (s : Session τ) (elapsed : τ) : s.view.Stays (s.tick elapsed).view := by
  have advanced : (s.advanceClock elapsed).view = s.view := by
    unfold advanceClock
    split <;> rfl
  have handled := stays_handleAll { s.advanceClock elapsed with pending := [] }
    (s.advanceClock elapsed).pending
  have same : ({ s.advanceClock elapsed with pending := [] } : Session τ).view = s.view := advanced
  rw [same] at handled
  exact handled

theorem Edit.follows {op : Operation τ} {d : Draft τ} (edit : s.Edit op d) :
    Follows op s.view d.view := by
  cases edit with
  | setCode code =>
      dsimp only
      split
      · exact .stays (.refl s.view)
      · exact .edited s.view true
  | setLines lines breakpoints foldedLines => exact .stays ⟨rfl, rfl, fun _ _ => rfl, id⟩
  | showTest shown => exact .turns (Draft.showTest_turns shown)
  | goTo gone =>
      apply Follows.stays
      rw [Draft.view_modifyClock]
      exact Draft.stays_goTo gone
  | step offered here gone =>
      apply Follows.stays
      rw [Draft.view_modifyClock]
      exact Draft.stays_goTo gone
  | startPlaying plays => exact .stays s.draft.stays_startPlaying
  | stopPlaying => exact .stays s.draft.stays_stopPlaying
  | pause => exact .stays s.draft.stays_pause

theorem perform_follows {op : Operation τ} (later : op.bringsResults = false) :
    Follows op s.view (s.perform op).view := by
  cases edits : op.edits with
  | true =>
      rcases perform_edit (s := s) edits with same | ⟨d, edit, same⟩
      · rw [same]
        exact .stays (.refl s.view)
      · rw [same, view_commit]
        exact edit.follows
  | false =>
      cases op with
      | tick elapsed => exact .stays (s.stays_tick elapsed)
      | setCurrentTask id => exact .stays (s.stays_setCurrentTask id)
      | runCode now => cases later
      | setResults results => cases later
      | _ => cases edits

theorem savedTimes_results {op : Operation τ} (brings : op.bringsResults = true) {slug : String}
    (other : (s.perform op).view.currentTest ≠ some slug) :
    (s.perform op).view.savedTimes.get? slug = none := by
  obtain ⟨tasked, d, results, autoPlay, -, -, draft⟩ := perform_results (s := s) brings
  have view : (s.perform op).view = (tasked.syncTasks (d.withResults results autoPlay)).view :=
    congrArg Draft.view draft
  have synced := tasked.stays_syncTasks (d.withResults results autoPlay)
  rw [view, synced.test] at other
  rw [view, synced.times slug other]
  exact (d.withResults_notes results autoPlay).2 slug other

/-- The views since results were brought last, or since the beginning, the latest first; `past` are
those before the operations. -/
def viewsSince (s : Session τ) (past : List View) : List (Operation τ) → List View
  | [] => past
  | op :: rest =>
    let next := s.perform op
    next.viewsSince (if op.bringsResults then [next.view] else next.view :: past) rest

/-- What is noted of the tests is when they were shown last. -/
def Noted (views : List View) (s : Session τ) : Prop :=
  ∀ slug, s.view.savedTimes.get? slug = View.lastShown? slug views

theorem Noted.perform {ran : Bool} {past : List View} (noted : s.Noted past)
    (h : s.Coherent ran) (op : Operation τ) :
    (s.perform op).Noted (if op.bringsResults then [(s.perform op).view]
      else (s.perform op).view :: past) := by
  have timed := (h.perform op).timed
  intro slug
  by_cases shown : (s.perform op).view.currentTest = some slug
  · have now : (s.perform op).view.savedTimes.get? slug = some (s.perform op).view.currentTime :=
      timed slug shown
    rw [now]
    split
    · simp [View.lastShown?, shown]
    · simp [View.lastShown?, shown]
  · cases results : op.bringsResults with
    | true =>
        rw [savedTimes_results results shown]
        simp [View.lastShown?, shown]
    | false =>
        rw [(perform_follows results).times shown, noted slug]
        simp [View.lastShown?, shown]

theorem Noted.performAll {ran : Bool} {past : List View} (noted : s.Noted past)
    (h : s.Coherent ran) (ops : List (Operation τ)) :
    (ops.foldl Session.perform s).Noted (s.viewsSince past ops) := by
  induction ops generalizing s past ran with
  | nil => exact noted
  | cons op rest ih => exact ih (noted.perform h op) (h.perform op)

theorem choose_shown (s : Session τ) (choice : Choice τ) :
    (s.choose choice).view.currentTest = s.view.currentTest ∧
      (s.choose choice).view.savedTimes = s.view.savedTimes ∧
      (s.choose choice).view.code = s.view.code := by
  cases choice with
  | features features => exact ⟨rfl, rfl, rfl⟩
  | watcher => exact ⟨rfl, rfl, rfl⟩
  | playback autoPlay speed =>
      simp only [choose, withPlayback, updateView, view_commit]
      exact ⟨rfl, rfl, rfl⟩
  | exercise exercise =>
      simp only [choose, withExercise, view_commit, syncTasks]
      exact ⟨rfl, rfl, rfl⟩

theorem chosen_shown (language : Language) (code : String) (choices : List (Choice τ)) :
    let begun := choices.foldl choose (ofCode language code)
    begun.view.currentTest = none ∧ begun.view.savedTimes = .empty ∧ begun.view.code = code := by
  suffices run : ∀ s : Session τ, s.view.currentTest = none → s.view.savedTimes = .empty →
      s.view.code = code → (choices.foldl choose s).view.currentTest = none ∧
        (choices.foldl choose s).view.savedTimes = .empty ∧
        (choices.foldl choose s).view.code = code by
    exact run (ofCode language code) rfl rfl rfl
  induction choices with
  | nil => exact fun s test times code => ⟨test, times, code⟩
  | cons choice rest ih =>
      intro s test times code
      obtain ⟨sameTest, sameTimes, sameCode⟩ := s.choose_shown choice
      exact ih _ (sameTest.trans test) (sameTimes.trans times) (sameCode.trans code)

theorem noted_chosen (language : Language) (code : String) (choices : List (Choice τ)) :
    let begun := choices.foldl choose (ofCode language code)
    begun.Noted [begun.view] := by
  obtain ⟨test, times, -⟩ := chosen_shown language code choices
  intro begun slug
  simp only [begun, View.lastShown?, test, times]
  rfl

/-- A test that is turned to while tests wait to be played is shown at the time noted for it, or
else at the time of its first frame. -/
theorem setCurrentTest_of_waits {slug : String} {r : TestResult τ}
    (found : s.results.get? slug = some r) (other : s.view.currentTest ≠ some slug)
    (waits : s.view.playsOnTestChange = false) :
    (s.setCurrentTest slug).view.currentTest = some slug ∧
      (s.setCurrentTest slug).view.currentTime =
        (s.view.savedTimes.get? slug).getD ((r.frames.head?.map (·.time)).getD 0) := by
  have left : s.draft.detach.view = s.view := Draft.view_modifyClock _ _
  have shown : s.draft.showTest? slug = some (s.draft.detach.opened slug
      ((s.view.savedTimes.get? slug).getD ((r.frames.head?.map (·.time)).getD 0))) := by
    have here : s.draft.results.get? slug = some r := found
    have apart : s.draft.view.currentTest ≠ some slug := other
    rw [Draft.showTest?_eq, if_neg apart, here, left, Option.map_some]
  unfold setCurrentTest
  rw [shown]
  dsimp only
  rw [view_commit]
  refine ⟨(Draft.showTest_turns shown).test, ?_⟩
  refine Draft.currentTime_opened _ slug _ ?_
  rw [left]
  exact waits

/-- Whatever was asked of a session, what is asked of it next changes the saved time of no test but
the one that is shown and the one that is turned to, unless it brings new results. And a test that
is turned to while tests wait to be played is shown at exactly the time at which it was shown last,
or at that of its first frame if it was not shown since there are these results. -/
theorem positions_are_kept (language : Language) (code : String) (choices : List (Choice τ))
    (ops : List (Operation τ)) (op : Operation τ) (slug : String) :
    let begun := choices.foldl choose (ofCode language code)
    let s := ops.foldl perform begun
    s.view.currentTest ≠ some slug →
      (op.bringsResults = false → op ≠ .setCurrentTest slug →
        (s.perform op).view.savedTimes.get? slug = s.view.savedTimes.get? slug) ∧
      ∀ r, s.results.get? slug = some r → s.view.playsOnTestChange = false →
        let turned := s.perform (.setCurrentTest slug)
        turned.view.currentTest = some slug ∧ turned.view.currentTime =
          (View.lastShown? slug (begun.viewsSince [begun.view] ops)).getD
            ((r.frames.head?.map (·.time)).getD 0) := by
  intro begun s other
  constructor
  · intro later stays
    have follows : Follows op s.view (s.perform op).view := perform_follows later
    exact follows.times (follows.test other stays)
  · intro r found waits
    have coherent : begun.Coherent ([].any Operation.bringsResults) :=
      coherent_after language code choices []
    have noted : s.Noted (begun.viewsSince [begun.view] ops) :=
      (noted_chosen language code choices).performAll coherent ops
    rw [← noted slug]
    exact setCurrentTest_of_waits found other waits

/-- A test that was scrubbed is left for another one, which is played, and is shown where it was
left. -/
theorem scrubbed_test_is_found_again :
    let result (slug code : String) : TestResult Float :=
      { TestResult.ofProgram code .jikiScript {} with slug }
    let results := [result "one" "set a to 1\nset b to 2", result "two" "set c to 3\nset d to 4"]
    let begun : Session Float := ([] : List (Choice Float)).foldl choose (ofCode .jikiScript "")
    let ops : List (Operation Float) := [.setResults results, .pause,
      .setCurrentTime 1 .exact false, .setCurrentTest "two", .play, .tick 2]
    let s := ops.foldl perform begun
    s.view.currentTest = some "two" ∧
      (s.perform .pause).view.savedTimes.get? "one" = s.view.savedTimes.get? "one" ∧
      View.lastShown? "one" (begun.viewsSince [begun.view] ops) = some 1 ∧
      (s.perform (.setCurrentTest "one")).view.currentTime = 1 := by
  intro result results begun ops s
  have shown : s.view.currentTest = some "two" := by decide +kernel
  have waits : s.view.playsOnTestChange = false := by decide +kernel
  have last : View.lastShown? "one" (begun.viewsSince [begun.view] ops) = some 1 := by
    decide +kernel
  have found : (s.results.get? "one").isSome = true := by decide +kernel
  have other : s.view.currentTest ≠ some "one" := by
    rw [shown]
    decide
  obtain ⟨r, there⟩ := Option.isSome_iff_exists.mp found
  obtain ⟨kept, turned⟩ := positions_are_kept .jikiScript "" [] ops .pause "one" other
  obtain ⟨-, time⟩ := turned r there waits
  rw [last] at time
  exact ⟨shown, kept rfl nofun, last, time⟩

end Session
end Walkthrough
