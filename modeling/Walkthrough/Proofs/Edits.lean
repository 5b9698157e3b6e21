import Walkthrough.Proofs.Coherence

/-! Operations that edit the draft of a session. But for new results, ticks and tasks, an operation
leaves a session as it is or commits one edit of its draft, so that what every edit keeps is kept by
every such operation. -/

namespace Walkthrough
namespace Session

variable {τ : Type} {s : Session τ} {op : Operation τ} {i : Nat}

def Operation.isStep : Operation τ → Bool
  | .goToNextFrame => true
  | .goToPreviousFrame => true
  | .goToNextBreakpoint => true
  | .goToPreviousBreakpoint => true
  | _ => false

def Operation.setsLines : Operation τ → Bool
  | .setBreakpoints _ => true
  | .toggleBreakpoint _ => true
  | .setFoldedLines _ => true
  | .toggleFold _ => true
  | _ => false

def Operation.plays : Operation τ → Bool
  | .setPlaying playing => playing
  | .play => true
  | _ => false

/-- The operation is answered by an edit of the draft at most. -/
def Operation.edits : Operation τ → Bool
  | .runCode _ => false
  | .setResults _ => false
  | .tick _ => false
  | .setCurrentTask _ => false
  | _ => true

def offered? (s : Session τ) : Operation τ → Option Nat
  | .goToNextFrame => s.view.nextFrame
  | .goToPreviousFrame => s.view.previousFrame
  | .goToNextBreakpoint => s.view.nextBreakpoint
  | .goToPreviousBreakpoint => s.view.previousBreakpoint
  | _ => none

theorem isStep_of_offered (offered : s.offered? op = some i) : op.isStep = true := by
  cases op <;> first | rfl | cases offered

variable [ClockTime τ]

/-- What an operation makes of the draft, if it changes it. -/
inductive Edit (s : Session τ) : Operation τ → Draft τ → Prop
  | setCode (code : String) : s.Edit (.setCode code) { s.draft with
      view := if s.view.code = code then s.view else { s.view with code, isCodeEdited := true } }
  | setLines {op : Operation τ} (lines : op.setsLines = true) (breakpoints foldedLines : Lines) :
      s.Edit op { s.draft with
        view := { s.view with breakpoints, foldedLines }.withNavigation s.frames }
  | showTest {slug : String} {d : Draft τ} (shown : s.draft.showTest? slug = some d) :
      s.Edit (.setCurrentTest slug) d
  | goTo {time : Micros} {lookup : FrameLookup} {force : Bool} {d : Draft τ}
      (gone : s.draft.goTo? time lookup force = some d) :
      s.Edit (.setCurrentTime time lookup force) (d.modifyClock (·.seek time))
  | step {op : Operation τ} {i : Nat} {f : Frame} {d : Draft τ} (offered : s.offered? op = some i)
      (here : s.frames[i]? = some f) (gone : s.draft.goTo? f.time .exact false = some d) :
      s.Edit op (d.modifyClock (·.seek f.time))
  | startPlaying {op : Operation τ} (plays : op.plays = true) : s.Edit op s.draft.startPlaying
  | stopPlaying : s.Edit (.setPlaying false) s.draft.stopPlaying
  | pause : s.Edit .pause s.draft.pause

theorem perform_step (step : op.isStep = true) : s.perform op = s.goToFrame (s.offered? op) := by
  cases op <;> first | rfl | cases step

theorem goToFrame_of_frame {f : Frame} (here : s.frames[i]? = some f) :
    s.goToFrame (some i) = s.setCurrentTime f.time .exact false := by
  simp only [goToFrame, Option.bind_some, here]

theorem edit_step (step : op.isStep = true) : s.perform op = s ∨
    ∃ d, s.Edit op d ∧ s.perform op = s.commit d := by
  rw [perform_step step]
  cases offered : s.offered? op with
  | none => exact Or.inl rfl
  | some i =>
      cases here : s.frames[i]? with
      | none =>
          refine Or.inl ?_
          simp only [goToFrame, Option.bind_some, here]
      | some f =>
          rw [goToFrame_of_frame here]
          unfold setCurrentTime
          cases gone : s.draft.goTo? f.time .exact false with
          | none => exact Or.inl rfl
          | some d => exact Or.inr ⟨_, .step offered here gone, rfl⟩

theorem perform_edit (edits : op.edits = true) : s.perform op = s ∨
    ∃ d, s.Edit op d ∧ s.perform op = s.commit d := by
  cases op with
  | setCode code => exact Or.inr ⟨_, .setCode code, rfl⟩
  | setCurrentTest slug =>
      simp only [perform, setCurrentTest]
      cases shown : s.draft.showTest? slug with
      | none => exact Or.inl rfl
      | some d => exact Or.inr ⟨d, .showTest shown, rfl⟩
  | setCurrentTime time lookup force =>
      simp only [perform, setCurrentTime]
      cases gone : s.draft.goTo? time lookup force with
      | none => exact Or.inl rfl
      | some d => exact Or.inr ⟨_, .goTo gone, rfl⟩
  | setPlaying playing =>
      cases playing with
      | true => exact Or.inr ⟨_, .startPlaying rfl, rfl⟩
      | false => exact Or.inr ⟨_, .stopPlaying, rfl⟩
  | play =>
      simp only [perform, play]
      split
      · exact Or.inl rfl
      · exact Or.inr ⟨_, .startPlaying rfl, rfl⟩
  | pause =>
      simp only [perform, pause]
      split
      · exact Or.inl rfl
      · exact Or.inr ⟨_, .pause, rfl⟩
  | setBreakpoints lines => exact Or.inr ⟨_, .setLines rfl lines s.view.foldedLines, rfl⟩
  | toggleBreakpoint line =>
      exact Or.inr ⟨_, .setLines rfl (s.view.breakpoints.toggle line) s.view.foldedLines, rfl⟩
  | setFoldedLines lines => exact Or.inr ⟨_, .setLines rfl s.view.breakpoints lines, rfl⟩
  | toggleFold line =>
      exact Or.inr ⟨_, .setLines rfl s.view.breakpoints (s.view.foldedLines.toggle line), rfl⟩
  | goToNextFrame | goToPreviousFrame | goToNextBreakpoint | goToPreviousBreakpoint =>
      exact edit_step rfl
  | runCode | setResults | tick | setCurrentTask => cases edits

theorem perform_results (brings : op.bringsResults = true) :
    ∃ (tasked : Session τ) (d : Draft τ) (results : TestResults τ) (autoPlay : Bool),
      (op = .setResults results ∨ ∃ run : Session τ, results = run.runTests) ∧
        d.view.code = s.view.code ∧
        (s.perform op).draft = tasked.syncTasks (d.withResults results autoPlay) := by
  cases op with
  | setResults results =>
      have untasked (d : Draft τ) : ({ s with tasks := none } : Session τ).syncTasks d = d := by
        unfold syncTasks
        split
        · next none => cases none
        · rfl
      refine ⟨{ s with tasks := none }, s.draft, results, s.autoPlay, Or.inl rfl, rfl, ?_⟩
      rw [untasked]
      exact draft_commit s _
  | runCode now =>
      let running := s.updateView fun v => { v with status := .running }
      let tasked := (running.updateTasks running.runTests now).1
      have store : tasked.store = running.store := by
        unfold tasked updateTasks
        split <;> rfl
      have same : tasked.view.code = s.view.code := by
        have begun : running.view = { s.view with status := .running } := view_commit s _
        have code := congrArg View.code begun
        rw [view, store]
        exact code
      exact ⟨tasked, tasked.draft, running.runTests, tasked.autoPlay, Or.inr ⟨running, rfl⟩, same,
        draft_commit tasked _⟩
  | _ => cases brings

end Session
end Walkthrough
