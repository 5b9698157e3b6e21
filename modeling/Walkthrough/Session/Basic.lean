import Walkthrough.Session.Draft
import Walkthrough.Session.Store

/-! A session: the code being edited, the results of its last run, and the playback of one of its
tests. Every operation makes a draft of the next view and commits it; watchers hear of it when it
differs. Sounds and dialogues are signals to whoever can make them. -/

namespace Walkthrough

inductive Signal where
  | sound (name : String)
  | dialogue (name : String)
deriving DecidableEq, Repr

namespace Signal

def text : Signal → String
  | .sound name => "sound:" ++ name
  | .dialogue name => "modal:" ++ name

def taskCompleted : Signal := .sound "task-completed"

def exerciseSolved : Signal := .dialogue "exercise-success-modal"

end Signal

structure Session (τ : Type) where
  store : Store View
  exercise : Option Exercise := none
  tasks : Option TaskBook := none
  features : Features := {}
  results : TestResults τ := []
  /-- Whether a fresh run starts playing. -/
  autoPlay : Bool := true
  /-- Playback runs so many times as fast as the time that passes. -/
  speed : τ
  pending : List (ClockEvent τ) := []
  /-- All signals so far, in order. -/
  signals : List Signal := []
  /-- How often watchers have been told of a new view. -/
  noticeCount : Nat := 0

namespace Session

variable {τ : Type}

def view (s : Session τ) : View :=
  s.store.value

def draft (s : Session τ) : Draft τ :=
  { view := s.view, results := s.results, pending := s.pending }

/-- Makes a draft the state of the session. -/
def commit (s : Session τ) (d : Draft τ) : Session τ :=
  { s with
    store := s.store.commit d.view
    results := d.results
    pending := d.pending
    noticeCount := s.noticeCount + (s.store.notices d.view).length }

/-- Commits a change of the view alone. -/
def updateView (s : Session τ) (f : View → View) : Session τ :=
  s.commit { s.draft with view := f s.view }

def signal (s : Session τ) (signals : List Signal) : Session τ :=
  { s with signals := s.signals ++ signals }

def currentResult? (s : Session τ) : Option (TestResult τ) :=
  s.view.currentTest.bind s.results.get?

def frames (s : Session τ) : List Frame :=
  s.draft.frames

def currentFrame? (s : Session τ) : Option Frame :=
  s.view.currentFrame.bind fun i => s.frames[i]?

def watch (s : Session τ) : Session τ :=
  { s with store := s.store.watch }

def withFeatures (s : Session τ) (features : Features) : Session τ :=
  { s with features }

/-- Takes the progress of the tasks into a draft. -/
def syncTasks (s : Session τ) (d : Draft τ) : Draft τ :=
  match s.exercise, s.tasks with
  | some exercise, some book => { d with view := d.view.withTasks exercise book }
  | _, _ => d

def withExercise (s : Session τ) (exercise : Exercise) : Session τ :=
  let s := { s with exercise := some exercise, tasks := some (.ofExercise exercise) }
  let d := s.draft
  s.commit (s.syncTasks { d with view := { d.view with exerciseSlug := some exercise.slug } })

variable [ClockTime τ]

def ofCode (language : Language) (code : String) : Session τ :=
  { store := { value := { code, language } }, speed := 1 }

/-- Playback as wished; a speed that is not positive counts as 1. -/
def withPlayback (s : Session τ) (autoPlay : Bool) (speed : τ) : Session τ :=
  { s with autoPlay, speed := if 0 < speed then speed else 1 }.updateView fun v =>
    { v with playsOnTestChange := autoPlay }

end Session
end Walkthrough
