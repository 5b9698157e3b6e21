import Walkthrough.Exercise.TestResult
import Walkthrough.Proofs.TaskHistory

/-! What it takes to complete a task. Whatever was in the book before, a run says of each task
whether all of its required scenarios passed. The book compares how many scenarios passed, each
counted once, with how many are required, and a scenario that is required twice is one too many
for ever. -/

namespace Walkthrough

namespace TestResults

variable {τ : Type} {results : TestResults τ}

theorem get?_of_mem (distinct : (results.map (·.slug)).Nodup) {r : TestResult τ}
    (member : r ∈ results) : results.get? r.slug = some r := by
  unfold get?
  induction results with
  | nil => cases member
  | cons first rest ih =>
      rw [List.map_cons, List.nodup_cons] at distinct
      rw [List.find?_cons]
      rcases List.mem_cons.mp member with rfl | later
      · rw [beq_self_eq_true]
      · have apart : (first.slug == r.slug) = false := by
          rw [beq_eq_false_iff_ne]
          intro same
          exact distinct.1 (same ▸ List.mem_map_of_mem later)
        rw [apart]
        exact ih distinct.2 later

theorem hasPassed_iff (distinct : (results.map (·.slug)).Nodup) (slug : String) :
    results.hasPassed slug = true ↔ ∃ r ∈ results, r.slug = slug ∧ r.passed = true := by
  unfold hasPassed
  rw [Option.any_eq_true]
  constructor
  · rintro ⟨r, found, passed⟩
    unfold get? at found
    have same := List.find?_some found
    exact ⟨r, List.mem_of_find?_eq_some found, beq_iff_eq.mp same, passed⟩
  · rintro ⟨r, member, rfl, passed⟩
    exact ⟨r, get?_of_mem distinct member, passed⟩

end TestResults

namespace Exercise

variable {exercise : Exercise} {task : Task} {attempt : Attempt}

theorem completes_iff : exercise.completes task attempt = true ↔
    exercise.required task ≠ [] ∧ (exercise.required task).Nodup ∧
      ∀ slug ∈ exercise.required task, attempt.passed slug = true := by
  simp [completes, and_assoc]

end Exercise

namespace TaskBook

variable {exercise : Exercise} {passed : String → Bool} {now : Int}

theorem updateTasks_append (book : TaskBook) (front behind : List Task) :
    (updateTasks exercise passed now book (front ++ behind)).1 =
      (updateTasks exercise passed now
        (updateTasks exercise passed now book front).1 behind).1 := by
  induction front generalizing book with
  | nil => rfl
  | cons task rest ih => exact ih (book.updateTask exercise passed now task).1

/-- Of the tasks with one id, the last one is what the book holds under it. -/
theorem progress_updateTasks_last (exercise : Exercise) (passed : String → Bool) (now : Int)
    (book : TaskBook) (front : List Task) {behind : List Task} {task : Task}
    (last : task.id ∉ behind.map (·.id)) :
    ∃ before, (updateTasks exercise passed now book (front ++ task :: behind)).1.progress? task.id =
      some (renewed before (exercise.required task) passed now) := by
  rw [updateTasks_append]
  unfold updateTasks
  dsimp only
  rw [progress_updateTasks_other _ _ last, progress_updateTask, if_pos rfl]
  exact ⟨_, rfl⟩

theorem progress_update (book : TaskBook) (exercise : Exercise) (attempt : Attempt) (id : String) :
    (book.update exercise attempt.passed attempt.now).1.progress? id =
      (updateTasks exercise attempt.passed attempt.now book exercise.tasks).1.progress? id := by
  rcases update_current attempt exercise book with ⟨-, turned⟩ | ⟨-, stayed⟩
  · rw [turned]
    rfl
  · rw [stayed]

/-- The status of a task after a run does not depend on what the book held before. -/
theorem status_update (book : TaskBook) {exercise : Exercise} (attempt : Attempt)
    {front behind : List Task} {task : Task} (tasks : exercise.tasks = front ++ task :: behind)
    (last : task.id ∉ behind.map (·.id)) :
    (book.update exercise attempt.passed attempt.now).1.status? task.id =
      some (statusOf (exercise.required task) (exercise.through task attempt)) := by
  obtain ⟨before, held⟩ :=
    progress_updateTasks_last exercise attempt.passed attempt.now book front last
  unfold status?
  rw [progress_update, tasks, held]
  rfl

/-- After a run, whatever the book held before, a task is complete exactly if it requires scenarios,
all of them passed, and none is required twice; it is in progress exactly if some passed and the
rest of that does not hold. For a list without repetition that is: all passed, or some but not all.
A scenario passed if the first test of its slug did, which is that some test of it did where there
is one test of each slug. Of several tasks with one id the last one counts. -/
theorem completed_iff_all_passed_once {τ : Type} (book : TaskBook) (exercise : Exercise)
    (results : TestResults τ) (now : Int) {front behind : List Task} {task : Task}
    (tasks : exercise.tasks = front ++ task :: behind) (last : task.id ∉ behind.map (·.id)) :
    let after := (book.update exercise results.hasPassed now).1
    let required := exercise.required task
    (after.status? task.id = some .completed ↔
      required ≠ [] ∧ (∀ slug ∈ required, results.hasPassed slug = true) ∧ required.Nodup) ∧
    (after.status? task.id = some .inProgress ↔
      (∃ slug ∈ required, results.hasPassed slug = true) ∧
        ¬ ((∀ slug ∈ required, results.hasPassed slug = true) ∧ required.Nodup)) ∧
    ((results.map (·.slug)).Nodup → ∀ slug, results.hasPassed slug = true ↔
      ∃ r ∈ results, r.slug = slug ∧ r.passed = true) := by
  intro after required
  let attempt : Attempt := ⟨results.hasPassed, now⟩
  have status : after.status? task.id =
      some (statusOf required (exercise.through task attempt)) :=
    status_update book attempt tasks last
  have complete : exercise.completes task attempt = true ↔
      required ≠ [] ∧ (∀ slug ∈ required, results.hasPassed slug = true) ∧ required.Nodup :=
    Exercise.completes_iff.trans (and_congr_right' and_comm)
  rw [status, Option.some.injEq, Option.some.injEq]
  refine ⟨(exercise.statusOf_completed task attempt).trans complete, ?_,
    TestResults.hasPassed_iff⟩
  rw [exercise.statusOf_inProgress task attempt, ← Bool.not_eq_true, complete]
  constructor
  · rintro ⟨incomplete, slug, member, passed⟩
    refine ⟨⟨slug, member, passed⟩, ?_⟩
    intro all
    exact incomplete ⟨List.ne_nil_of_mem member, all⟩
  · rintro ⟨some, missing⟩
    exact ⟨fun full => missing full.2, some⟩

/-- The task that requires both scenarios is complete, although another one with its id stands
before it that requires more. -/
theorem last_greeting_is_complete :
    let more : Task := { id := "greet", required := some ["hello", "wave", "bow"] }
    let greet : Task := { id := "greet", required := some ["wave", "hello"] }
    let exercise : Exercise := { slug := "manners", tasks := [more, greet], scenarios := [] }
    let clock : Clock Unit := { duration := (), current := () }
    let results : TestResults Unit :=
      [{ slug := "hello", name := "Hello", passed := true, clock },
       { slug := "wave", name := "Wave", passed := true, clock },
       { slug := "bow", name := "Bow", passed := false, clock }]
    exercise.tasks = [more] ++ greet :: [] ∧ "greet" ∉ ([] : List Task).map (·.id) ∧
      ((ofExercise exercise).update exercise results.hasPassed 5).1.status? "greet" =
        some .completed := by
  intro more greet exercise clock results
  have tasks : exercise.tasks = [more] ++ greet :: [] := rfl
  have last : greet.id ∉ ([] : List Task).map (·.id) := List.not_mem_nil
  obtain ⟨completed, -, -⟩ :=
    completed_iff_all_passed_once (ofExercise exercise) exercise results 5 tasks last
  exact ⟨tasks, last, completed.mpr (by decide)⟩

/-- A task that requires a scenario twice is not complete although every scenario that it requires
passed. -/
theorem repetition_is_never_complete :
    let task : Task := { id := "twice", required := some ["hello", "hello"] }
    let exercise : Exercise := { slug := "manners", tasks := [task], scenarios := [] }
    let clock : Clock Unit := { duration := (), current := () }
    let results : TestResults Unit :=
      [{ slug := "hello", name := "Hello", passed := true, clock }]
    exercise.required task ≠ [] ∧
      (∀ slug ∈ exercise.required task, ∃ r ∈ results, r.slug = slug ∧ r.passed = true) ∧
      ((ofExercise exercise).update exercise results.hasPassed 5).1.status? "twice" =
        some .inProgress := by
  intro task exercise clock results
  refine ⟨by decide, ?_, by decide +kernel⟩
  intro slug member
  have only : slug = "hello" := by simpa [exercise, task, Exercise.required] using member
  exact ⟨_, List.mem_cons_self, only.symm, rfl⟩

end TaskBook
end Walkthrough
