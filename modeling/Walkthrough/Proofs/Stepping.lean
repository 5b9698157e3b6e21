import Walkthrough.Proofs.Viewpoints

/-! Steps of the learner. A step leads to the frame that it was offered to lead to, unless the time
of that frame is the current time already: then nothing happens. That takes a test whose nearest
frame was shown for a time whose own frame was folded away. -/

namespace Walkthrough

open Navigation

variable {τ : Type}

namespace Viewpoint

variable {p p' : Viewpoint} {time : Micros}

/-- The frame of the current time is shown, if there is one. -/
def Settled (p : Viewpoint) : Prop :=
  Increasing p.frames → ∀ i f, p.frames[i]? = some f → f.time = p.time → p.frame = some i

/-- A frame of the current time is folded away. -/
def isOnFold (p : Viewpoint) : Bool :=
  p.frames.any fun f => f.time == p.time && !isVisible p.folded f

theorem settled_of_empty (h : p.frames = []) : p.Settled := by
  intro _ i f here
  simp [h] at here

theorem goTo_frame_of_pick {lookup : FrameLookup} {i : Nat} (picked : p.pick time lookup = some i) :
    (p.goTo time lookup).frame = some i := by
  simp only [goTo, picked, Option.some_or]

theorem settled_of_exact (gone : p' = p.goTo time .exact) : p'.Settled := by
  subst gone
  intro increasing i f here same
  have current : f.time = time := same
  exact goTo_frame_of_pick (current ▸ Increasing.findIdx?_time increasing here)

theorem settled_of_nearest (gone : p' = p.goTo time .nearest) (clear : p'.isOnFold = false) :
    p'.Settled := by
  subst gone
  intro increasing i f here same
  have current : f.time = time := same
  have visible : isVisible (p.goTo time .nearest).folded f = true := by
    simpa [same] using List.any_eq_false.mp clear f (List.mem_of_getElem? here)
  exact goTo_frame_of_pick (current ▸ Increasing.nearest?_time increasing here visible)

theorem Settled.moves (h : p.Settled) (moves : p' = p ∨ ∃ time, p' = p.goTo time .exact) :
    p'.Settled := by
  rcases moves with rfl | ⟨time, gone⟩
  · exact h
  · exact settled_of_exact gone

end Viewpoint

open Viewpoint

namespace Draft

variable [ClockTime τ] {d : Draft τ}

theorem settled_showTest {d' : Draft τ} {slug : String} (shown : d.showTest? slug = some d')
    (clear : d'.viewpoint.isOnFold = false) : d'.viewpoint.Settled := by
  obtain ⟨r, -, opened | ⟨-, -, again⟩⟩ := viewpoint_showTest shown
  · exact settled_of_nearest opened clear
  · exact settled_of_exact again

theorem settled_withResults (d : Draft τ) (results : TestResults τ) (autoPlay : Bool)
    (clear : (d.withResults results autoPlay).viewpoint.isOnFold = false) :
    (d.withResults results autoPlay).viewpoint.Settled := by
  rcases d.withResults_shows results autoPlay with empty | ⟨fresh, slug, shown⟩
  · exact settled_of_empty empty
  · exact settled_showTest shown clear

end Draft

namespace Session

variable {s : Session τ} {op : Operation τ} {passed : Bool}

def Operation.looksAround : Operation τ → Bool
  | .runCode _ => true
  | .setResults _ => true
  | .setCurrentTest _ => true
  | .setCurrentTime _ .nearest _ => true
  | _ => false

def isOnFold (s : Session τ) : Bool :=
  s.viewpoint.isOnFold

/-- The frame of the current time is shown, unless a fold was passed. -/
def Settled (passed : Bool) (s : Session τ) : Prop :=
  passed = false → s.viewpoint.Settled

variable [ClockTime τ]

/-- One of the operations shows the nearest frame of a time whose own frame is folded away. -/
def passesFold (s : Session τ) : List (Operation τ) → Bool
  | [] => false
  | op :: rest => (op.looksAround && (s.perform op).isOnFold) || (s.perform op).passesFold rest

theorem Edit.settled {d : Draft τ} (edit : s.Edit op d) (h : s.viewpoint.Settled)
    (clear : op.looksAround = true → d.viewpoint.isOnFold = false) : d.viewpoint.Settled := by
  cases edit with
  | setCode code =>
      have alike : s.draft.Alike { s.draft with
          view := if s.view.code = code then s.view
            else { s.view with code, isCodeEdited := true } } := by
        refine ⟨?_, rfl⟩
        dsimp only
        split <;> rfl
      rw [alike.viewpoint]
      exact h
  | setLines => exact h
  | showTest shown => exact Draft.settled_showTest shown (clear rfl)
  | goTo gone =>
      rename_i time lookup _ _
      have went := Draft.viewpoint_goTo_modifyClock gone (·.seek time)
      cases lookup with
      | exact => exact settled_of_exact went
      | nearest => exact settled_of_nearest went (clear rfl)
  | step _ _ gone => exact settled_of_exact (Draft.viewpoint_goTo_modifyClock gone _)
  | startPlaying =>
      refine h.moves (s.draft.viewpoint_startPlaying.imp id ?_)
      rintro ⟨-, again⟩
      exact ⟨0, again⟩
  | stopPlaying => exact h.moves (Or.inl (Draft.viewpoint_modifyClock _ _))
  | pause =>
      rcases s.draft.viewpoint_pause with ⟨-, same⟩ | ⟨i, f, -, -, gone⟩
      · exact h.moves (Or.inl same)
      · exact settled_of_exact gone

theorem settled_tick (h : s.viewpoint.Settled) (elapsed : τ) :
    (s.tick elapsed).viewpoint.Settled := by
  refine List.foldlRecOn (motive := fun s : Session τ => s.viewpoint.Settled) _ handle ?_ ?_
  · exact h.moves (Or.inl (s.viewpoint_advanceClock elapsed))
  · intro s settled event _
    exact settled.moves (s.viewpoint_handle event)

theorem settled_setResults (s : Session τ) (results : TestResults τ)
    (clear : (s.setResults results).isOnFold = false) :
    (s.setResults results).viewpoint.Settled := by
  rw [isOnFold, viewpoint_setResults] at clear
  rw [viewpoint_setResults]
  exact Draft.settled_withResults _ _ _ clear

theorem settled_runCode (s : Session τ) (now : Int) (clear : (s.runCode now).isOnFold = false) :
    (s.runCode now).viewpoint.Settled := by
  obtain ⟨d, results, shown⟩ := s.viewpoint_runCode now
  rw [isOnFold, shown] at clear
  rw [shown]
  exact Draft.settled_withResults _ _ _ clear

theorem Settled.perform (h : s.Settled passed) (op : Operation τ) :
    (s.perform op).Settled (passed || (op.looksAround && (s.perform op).isOnFold)) := by
  intro none
  obtain ⟨before, around⟩ := Bool.or_eq_false_iff.mp none
  have settled := h before
  have clear : op.looksAround = true → (s.perform op).isOnFold = false := by
    intro looks
    rwa [looks, Bool.true_and] at around
  have edited (edits : op.edits = true) : (s.perform op).viewpoint.Settled := by
    rcases perform_edit edits with same | ⟨d, edit, committed⟩
    · rwa [same]
    · rw [committed, isOnFold, viewpoint_commit] at clear
      rw [committed, viewpoint_commit]
      exact edit.settled settled clear
  cases op with
  | runCode now => exact s.settled_runCode now (clear rfl)
  | setResults results => exact s.settled_setResults results (clear rfl)
  | tick elapsed => exact settled_tick settled elapsed
  | setCurrentTask id => exact settled.moves (Or.inl (s.viewpoint_setCurrentTask id))
  | _ => exact edited rfl

theorem Settled.performAll (h : s.Settled passed) (ops : List (Operation τ)) :
    (ops.foldl Session.perform s).Settled (passed || s.passesFold ops) := by
  induction ops generalizing s passed with
  | nil => rwa [passesFold, Bool.or_false]
  | cons op rest ih =>
      rw [passesFold, ← Bool.or_assoc]
      exact ih (h.perform op)

theorem settled_chosen (language : Language) (code : String) (choices : List (Choice τ)) :
    (choices.foldl choose (ofCode language code)).Settled false := by
  intro _
  refine List.foldlRecOn (motive := fun s => s.viewpoint.Settled) choices choose ?_
    fun s settled choice _ => ?_
  · exact settled_of_empty rfl
  · exact settled.moves (Or.inl (s.viewpoint_choose choice))

/-- Whatever was asked before, a step leads to the frame that it was offered to lead to if the time
of that frame is not the current time. If it is, the step changes nothing at all; that takes an
operation that showed the nearest frame of a time whose own frame was folded away. -/
theorem step_is_taken (language : Language) (code : String) (choices : List (Choice τ))
    (ops : List (Operation τ)) {op : Operation τ} {i : Nat} :
    let begun := choices.foldl choose (ofCode language code)
    let s := ops.foldl perform begun
    Increasing s.frames → s.offered? op = some i →
      ∃ f, s.frames[i]? = some f ∧
        ((s.perform op).view.currentFrame = some i ↔ s.view.currentTime ≠ f.time) ∧
        (s.view.currentTime = f.time → s.perform op = s ∧ begun.passesFold ops = true) := by
  intro begun s increasing offered
  have coherent : s.Coherent (ops.any Operation.bringsResults) :=
    coherent_after language code choices ops
  obtain ⟨c, f, shown, here, other, -⟩ := coherent.offered offered
  have went : s.perform op = s.setCurrentTime f.time .exact false := by
    rw [perform_step (isStep_of_offered offered), offered, goToFrame_of_frame here]
  have elsewhere : s.view.currentFrame ≠ some i := by
    intro same
    rw [currentFrame?, same, Option.bind_some, here] at shown
    cases shown
    exact other rfl
  have ignored (now : s.view.currentTime = f.time) : s.perform op = s := by
    rw [went, ← now, setCurrentTime_same]
  refine ⟨f, here, ?_, ?_⟩
  · constructor
    · intro reached now
      rw [ignored now] at reached
      exact elsewhere reached
    · intro later
      have gone := viewpoint_setCurrentTime_of_ne (Draft.shown_of_frame here) later .exact false
      rw [← went] at gone
      exact (congrArg Viewpoint.frame gone).trans
        (goTo_frame_of_pick (increasing.findIdx?_time here))
  · intro now
    refine ⟨ignored now, ?_⟩
    by_contra none
    have settled := (settled_chosen language code choices).performAll ops
    rw [Bool.false_or] at settled
    exact elsewhere (settled (Bool.eq_false_iff.mpr none) increasing i f here now.symm)

/-- A step leads over a folded line, also from beside the line that a jump was to. -/
theorem step_over_fold_is_taken :
    let s : Session Float :=
      [.runCode 0, .toggleFold 2, .setCurrentTime 1 .nearest false].foldl perform
        ([.playback false 1].foldl choose (ofCode .jikiScript "set a to 1\nset b to 2\nset c to 3"))
    Increasing s.frames ∧ s.offered? .goToNextFrame = some 2 ∧
      (s.perform .goToNextFrame).view.currentFrame = some 2 := by
  intro s
  have increasing : Increasing s.frames := by decide +kernel
  have offered : s.offered? .goToNextFrame = some 2 := by decide +kernel
  have elsewhere : s.frames[2]?.any (·.time == s.view.currentTime) = false := by decide +kernel
  obtain ⟨f, here, reached, -⟩ := step_is_taken .jikiScript "set a to 1\nset b to 2\nset c to 3"
    [.playback false 1] [.runCode 0, .toggleFold 2, .setCurrentTime 1 .nearest false]
    increasing offered
  refine ⟨increasing, offered, reached.mpr fun now => ?_⟩
  have found : s.frames[2]? = some f := here
  have same : s.view.currentTime = f.time := now
  simp [found, same] at elsewhere

/-- When that line is unfolded, the step to it is offered and changes nothing. -/
theorem step_beside_fold_is_ignored :
    let s : Session Float :=
      [.runCode 0, .toggleFold 2, .setCurrentTime 1 .nearest false, .toggleFold 2].foldl perform
        ([.playback false 1].foldl choose (ofCode .jikiScript "set a to 1\nset b to 2\nset c to 3"))
    Increasing s.frames ∧ s.view.nextFrame = some 1 ∧
      (s.perform .goToNextFrame).view.currentFrame = some 0 := by
  decide +kernel

end Session
end Walkthrough
