import Mathlib.Data.List.Perm.Subperm
import Walkthrough.Exercise.TaskBook
import Walkthrough.Proofs.Tables

/-! The book of tasks over its history. Runs are worked into a book and tasks are chosen in it,
in any order; what the book holds of a task is always what the runs so far say of it, and the latest
one alone but for the time of completion, which is that of the first run of the unbroken series of
complete ones that the latest run belongs to. -/

namespace Walkthrough

/-- A run of all scenarios: which of them passed, and when it was. -/
structure Attempt where
  passed : String → Bool
  now : Int

namespace Exercise

variable (exercise : Exercise)

/-- The scenarios required for a task that passed, each once, in the order of the requirements. -/
def through (task : Task) (attempt : Attempt) : List String :=
  ((exercise.required task).filter attempt.passed).eraseDups

/-- Whether a run completes a task: it requires something, nothing twice, and all of it passed. -/
def completes (task : Task) (attempt : Attempt) : Bool :=
  !(exercise.required task).isEmpty && decide (exercise.required task).Nodup &&
    (exercise.required task).all attempt.passed

/-- The unbroken series of runs, up to the latest one, each of which completes a task. The latest
run comes first. -/
def streak (task : Task) (attempts : List Attempt) : List Attempt :=
  attempts.takeWhile (exercise.completes task)

/-- What is to be held of a task after runs of which the latest one comes first. -/
def standing (task : Task) : List Attempt → TaskProgress
  | [] => { taskId := task.id, total := (exercise.required task).length }
  | attempt :: past =>
    { taskId := task.id
      status := TaskBook.statusOf (exercise.required task) (exercise.through task attempt)
      passed := exercise.through task attempt
      total := (exercise.required task).length
      completedAt := (exercise.streak task (attempt :: past)).getLast?.map Attempt.now }

end Exercise

section Repetitions

variable {names : List String}

theorem eraseDups_sublist : names.eraseDups.Sublist names := by
  induction h : names.length using Nat.strong_induction_on generalizing names with
  | _ n ih =>
      cases names with
      | nil => simp
      | cons name rest =>
          have fewer := List.length_filter_le (fun other => !other == name) rest
          rw [List.length_cons] at h
          rw [List.eraseDups_cons]
          refine List.Sublist.cons_cons name ?_
          exact (ih _ (by omega) rfl).trans List.filter_sublist

theorem nodup_eraseDups : names.eraseDups.Nodup := by
  induction h : names.length using Nat.strong_induction_on generalizing names with
  | _ n ih =>
      cases names with
      | nil => simp
      | cons name rest =>
          have fewer := List.length_filter_le (fun other => !other == name) rest
          rw [List.length_cons] at h
          rw [List.eraseDups_cons, List.nodup_cons]
          constructor
          · simp
          · exact ih _ (by omega) rfl

theorem length_eraseDups_eq_iff : names.eraseDups.length = names.length ↔ names.Nodup := by
  constructor
  · intro same
    rw [← eraseDups_sublist.eq_of_length same]
    exact nodup_eraseDups
  · intro distinct
    apply le_antisymm eraseDups_sublist.length_le
    apply (List.subperm_of_subset distinct ?_).length_le
    intro name
    exact List.mem_eraseDups.mpr

end Repetitions

namespace Exercise

variable (exercise : Exercise) (task : Task) (attempt : Attempt)

theorem mem_through {slug : String} :
    slug ∈ exercise.through task attempt ↔
      slug ∈ exercise.required task ∧ attempt.passed slug = true := by
  simp [through]

theorem length_through_eq_iff :
    (exercise.through task attempt).length = (exercise.required task).length ↔
      (exercise.required task).Nodup ∧ (exercise.required task).all attempt.passed = true := by
  have fewer := List.length_filter_le attempt.passed (exercise.required task)
  have once : (exercise.through task attempt).length ≤ _ := eraseDups_sublist.length_le
  unfold through at once ⊢
  constructor
  · intro same
    have all : ∀ slug ∈ exercise.required task, attempt.passed slug = true :=
      List.length_filter_eq_length_iff.mp (by omega)
    rw [List.filter_eq_self.mpr all] at same
    exact ⟨length_eraseDups_eq_iff.mp same, List.all_eq_true.mpr all⟩
  · rintro ⟨distinct, all⟩
    rw [List.filter_eq_self.mpr (List.all_eq_true.mp all)]
    exact length_eraseDups_eq_iff.mpr distinct

theorem statusOf_completed :
    TaskBook.statusOf (exercise.required task) (exercise.through task attempt) = .completed ↔
      exercise.completes task attempt = true := by
  have full := exercise.length_through_eq_iff task attempt
  have done : exercise.completes task attempt = true ↔
      (!(exercise.required task).isEmpty &&
        (exercise.through task attempt).length == (exercise.required task).length) = true := by
    simp [completes, full, and_assoc]
  rw [done]
  unfold TaskBook.statusOf
  split
  · simp_all
  · split <;> simp_all

theorem statusOf_inProgress :
    TaskBook.statusOf (exercise.required task) (exercise.through task attempt) = .inProgress ↔
      exercise.completes task attempt = false ∧
        ∃ slug ∈ exercise.required task, attempt.passed slug = true := by
  have completed := exercise.statusOf_completed task attempt
  have started : (!(exercise.through task attempt).isEmpty) = true ↔
      ∃ slug ∈ exercise.required task, attempt.passed slug = true := by
    rw [Bool.not_eq_true', List.isEmpty_eq_false_iff_exists_mem]
    simp only [mem_through]
  rw [← started, ← Bool.not_eq_true, ← completed]
  unfold TaskBook.statusOf
  split
  · simp
  · split <;> simp_all

theorem completes_iff_standing (past : List Attempt) :
    (exercise.standing task (attempt :: past)).status = .completed ↔
      exercise.completes task attempt = true :=
  exercise.statusOf_completed task attempt

/-- A task stands complete as long as the series of runs that complete it goes on. -/
theorem standing_completed {attempts : List Attempt} :
    (exercise.standing task attempts).status = .completed ↔
      exercise.streak task attempts ≠ [] := by
  cases attempts with
  | nil => simp [standing, streak]
  | cons attempt past =>
      rw [completes_iff_standing]
      simp [streak, List.takeWhile_cons]

theorem since_streak (past : List Attempt) :
    (exercise.streak task (attempt :: past)).getLast?.map Attempt.now =
      if exercise.completes task attempt = true then
        if exercise.streak task past = [] then some attempt.now
        else (exercise.streak task past).getLast?.map Attempt.now
      else none := by
  have longer : exercise.streak task (attempt :: past) =
      if exercise.completes task attempt = true then attempt :: exercise.streak task past
      else [] := by
    unfold streak
    rw [List.takeWhile_cons]
  rw [longer]
  split
  · cases exercise.streak task past <;> simp
  · rfl

/-- The progress worked out anew from that of the runs before is what all the runs say. -/
theorem renewed_standing (past : List Attempt) :
    TaskBook.renewed (exercise.standing task past) (exercise.required task) attempt.passed
        attempt.now =
      exercise.standing task (attempt :: past) := by
  have same : (exercise.standing task past).taskId = task.id := by
    cases past <;> rfl
  have kept : (exercise.standing task past).completedAt =
      (exercise.streak task past).getLast?.map Attempt.now := by
    cases past <;> rfl
  have anew : TaskBook.renewed (exercise.standing task past) (exercise.required task)
      attempt.passed attempt.now =
        { exercise.standing task (attempt :: past) with
          taskId := (exercise.standing task past).taskId
          completedAt :=
            if (exercise.standing task (attempt :: past)).status = .completed then
              if (exercise.standing task past).status = .completed then
                (exercise.standing task past).completedAt
              else some attempt.now
            else none } := rfl
  rw [anew, same, kept]
  simp only [completes_iff_standing]
  simp only [standing_completed, ne_eq, ite_not]
  rw [← since_streak]
  rfl

end Exercise

namespace TaskBook

variable {exercise : Exercise} {passed : String → Bool} {now : Int}

section Update

/-- What a run makes of the progress of a task in a book. -/
def anew (book : TaskBook) (exercise : Exercise) (passed : String → Bool) (now : Int)
    (task : Task) : TaskProgress :=
  renewed ((book.progress? task.id).getD { taskId := task.id }) (exercise.required task) passed now

theorem progress_updateTask (book : TaskBook) (task : Task) (id : String) :
    (book.updateTask exercise passed now task).1.progress? id =
      if id = task.id then some (book.anew exercise passed now task) else book.progress? id := by
  simp [updateTask, progress?, anew]

theorem progress_updateTasks_other (book : TaskBook) (tasks : List Task) {id : String}
    (other : id ∉ tasks.map (·.id)) :
    (updateTasks exercise passed now book tasks).1.progress? id = book.progress? id := by
  induction tasks generalizing book with
  | nil => rfl
  | cons task rest ih =>
      rw [List.map_cons, List.mem_cons, not_or] at other
      unfold updateTasks
      dsimp only
      rw [ih _ other.2, progress_updateTask, if_neg other.1]

/-- Of tasks with different ids each is worked into the book as if it were the only one. -/
theorem progress_updateTasks (book : TaskBook) {tasks : List Task}
    (distinct : (tasks.map (·.id)).Nodup) {task : Task} (member : task ∈ tasks) :
    (updateTasks exercise passed now book tasks).1.progress? task.id =
      some (book.anew exercise passed now task) := by
  induction tasks generalizing book with
  | nil => cases member
  | cons first rest ih =>
      rw [List.map_cons, List.nodup_cons] at distinct
      unfold updateTasks
      dsimp only
      rcases List.mem_cons.mp member with rfl | later
      · rw [progress_updateTasks_other _ _ distinct.1, progress_updateTask, if_pos rfl]
      · have apart : task.id ≠ first.id := by
          intro same
          exact distinct.1 (same ▸ List.mem_map_of_mem later)
        rw [ih _ distinct.2 later]
        unfold anew
        rw [progress_updateTask, if_neg apart]

/-- The ids given back are those of the tasks that became complete, in the order of the tasks. -/
theorem ids_updateTasks (book : TaskBook) {tasks : List Task}
    (distinct : (tasks.map (·.id)).Nodup) :
    (updateTasks exercise passed now book tasks).2 =
      (tasks.filter fun task => (book.anew exercise passed now task).status == .completed &&
        !book.isCompleted task.id).map (·.id) := by
  induction tasks generalizing book with
  | nil => rfl
  | cons first rest ih =>
      rw [List.map_cons, List.nodup_cons] at distinct
      unfold updateTasks
      dsimp only
      rw [ih _ distinct.2]
      have later : ∀ task ∈ rest, ((book.updateTask exercise passed now first).1.progress? task.id)
          = book.progress? task.id := by
        intro task member
        rw [progress_updateTask, if_neg]
        intro same
        exact distinct.1 (same ▸ List.mem_map_of_mem member)
      have unmoved : (rest.filter fun task =>
          ((book.updateTask exercise passed now first).1.anew exercise passed now task).status ==
            .completed && !(book.updateTask exercise passed now first).1.isCompleted task.id) =
          rest.filter fun task => (book.anew exercise passed now task).status == .completed &&
            !book.isCompleted task.id := by
        apply List.filter_congr
        intro task member
        unfold anew isCompleted status?
        rw [later task member]
      rw [unmoved, List.filter_cons]
      have isNew : (book.updateTask exercise passed now first).2 =
          ((book.anew exercise passed now first).status == .completed &&
            !book.isCompleted first.id) := by
        unfold updateTask anew isCompleted status?
        cases book.progress? first.id <;> simp [bne]
      rw [isNew]
      split <;> simp

end Update

/-- What is done with a book: a run is worked into it, or a task is turned to. -/
inductive Event where
  | worked (attempt : Attempt)
  | chosen (id : String)

/-- Turning to a task that is not in the book does nothing. -/
def perform (exercise : Exercise) (book : TaskBook) : Event → TaskBook
  | .worked attempt => (book.update exercise attempt.passed attempt.now).1
  | .chosen id => (book.setCurrent? id).getD book

def after (exercise : Exercise) (events : List Event) : TaskBook :=
  events.foldl (perform exercise) (ofExercise exercise)

/-- The runs up to an event, the latest one first. -/
def note (past : List Attempt) : Event → List Attempt
  | .worked attempt => attempt :: past
  | .chosen _ => past

def attempts (events : List Event) : List Attempt :=
  events.foldl note []

/-- A book that holds of every task of the exercise what the runs say, and turns to no other
task. -/
structure Keeps (book : TaskBook) (exercise : Exercise) (attempts : List Attempt) : Prop where
  order : book.order = exercise.tasks.map fun task => (task.id, task.bonus)
  known : ∀ id, (book.progress? id).isSome → id ∈ exercise.tasks.map (·.id)
  progress : ∀ task ∈ exercise.tasks,
    book.progress? task.id = some (exercise.standing task attempts)
  current : ∀ id, book.current = some id → id ∈ exercise.tasks.map (·.id)

section Next

variable {book : TaskBook}

theorem nextIncomplete?_eq
    (order : book.order = exercise.tasks.map fun task => (task.id, task.bonus)) :
    book.nextIncomplete? =
      ((exercise.tasks.find? fun task => !task.bonus && !book.isCompleted task.id).or
        (exercise.tasks.find? fun task => task.bonus && !book.isCompleted task.id)).map (·.id) := by
  unfold nextIncomplete?
  simp only [order, List.find?_map, Option.map_map, Option.map_or]
  simp only [Function.comp_def, beq_false, beq_true]

theorem nextIncomplete?_sound (book : TaskBook)
    (order : book.order = exercise.tasks.map fun task => (task.id, task.bonus)) :
    match book.nextIncomplete? with
    | some id => id ∈ exercise.tasks.map (·.id) ∧ book.isCompleted id = false
    | none => ∀ task ∈ exercise.tasks, book.isCompleted task.id = true := by
  rw [nextIncomplete?_eq order]
  cases plain : exercise.tasks.find? fun task => !task.bonus && !book.isCompleted task.id with
  | some task =>
      have open_ := List.find?_some plain
      simp only [Bool.and_eq_true, Bool.not_eq_true'] at open_
      exact ⟨List.mem_map_of_mem (List.mem_of_find?_eq_some plain), open_.2⟩
  | none =>
      cases bonus : exercise.tasks.find? fun task => task.bonus && !book.isCompleted task.id with
      | some task =>
          have open_ := List.find?_some bonus
          simp only [Bool.and_eq_true, Bool.not_eq_true'] at open_
          exact ⟨List.mem_map_of_mem (List.mem_of_find?_eq_some bonus), open_.2⟩
      | none =>
          intro task member
          have noPlain := List.find?_eq_none.mp plain task member
          have noBonus := List.find?_eq_none.mp bonus task member
          cases kind : task.bonus <;> simp_all

end Next

theorem keeps_ofExercise (distinct : (exercise.tasks.map (·.id)).Nodup) :
    (ofExercise exercise).Keeps exercise [] := by
  have apart : (exercise.tasks.map fun task => (task.id, exercise.standing task [])).Pairwise
      fun a b => a.1 ≠ b.1 := by
    rw [List.pairwise_map]
    exact List.pairwise_map.mp distinct
  have held : ∀ id, (ofExercise exercise).progress? id =
      (exercise.tasks.map fun task => (task.id, exercise.standing task [])).lookup id := by
    intro id
    refine (Table.get?_insertAll .empty _ apart id).trans ?_
    exact Option.or_none
  refine ⟨rfl, ?_, ?_, ?_⟩
  · intro id isSome
    rw [held] at isSome
    obtain ⟨p, found⟩ := Option.isSome_iff_exists.mp isSome
    obtain ⟨task, member, same⟩ := List.mem_map.mp (mem_of_lookup found)
    exact List.mem_map.mpr ⟨task, member, congrArg Prod.fst same⟩
  · intro task member
    rw [held]
    exact lookup_of_mem apart (List.mem_map_of_mem member)
  · intro id chosen
    have sound := nextIncomplete?_sound (ofExercise exercise) rfl
    have next : (ofExercise exercise).nextIncomplete? = some id := chosen
    rw [next] at sound
    exact sound.1

theorem Keeps.isCompleted {book : TaskBook} {past : List Attempt}
    (keeps : book.Keeps exercise past) {task : Task} (member : task ∈ exercise.tasks) :
    book.isCompleted task.id = ((exercise.standing task past).status == .completed) := by
  unfold TaskBook.isCompleted status?
  rw [keeps.progress task member]
  rfl

section Update

variable {book : TaskBook} {past : List Attempt} (attempt : Attempt)

theorem updateTasks_rest (exercise : Exercise) (passed : String → Bool) (now : Int)
    (book : TaskBook) (tasks : List Task) :
    (updateTasks exercise passed now book tasks).1.order = book.order ∧
      (updateTasks exercise passed now book tasks).1.current = book.current := by
  induction tasks generalizing book with
  | nil => exact ⟨rfl, rfl⟩
  | cons task rest ih => exact ih (book.updateTask exercise passed now task).1

theorem Keeps.worked (keeps : book.Keeps exercise past)
    (distinct : (exercise.tasks.map (·.id)).Nodup) :
    (updateTasks exercise attempt.passed attempt.now book exercise.tasks).1.Keeps exercise
      (attempt :: past) := by
  obtain ⟨order, current⟩ := updateTasks_rest exercise attempt.passed attempt.now book
    exercise.tasks
  refine ⟨order.trans keeps.order, ?_, ?_, ?_⟩
  · intro id isSome
    by_cases known : id ∈ exercise.tasks.map (·.id)
    · exact known
    · rw [progress_updateTasks_other _ _ known] at isSome
      exact keeps.known id isSome
  · intro task member
    rw [progress_updateTasks _ distinct member]
    unfold anew
    rw [keeps.progress task member]
    exact congrArg some (exercise.renewed_standing task attempt past)
  · intro id chosen
    rw [current] at chosen
    exact keeps.current id chosen

theorem update_current (exercise : Exercise) (book : TaskBook) :
    let worked := (updateTasks exercise attempt.passed attempt.now book exercise.tasks).1
    (∀ id, book.current = some id → worked.isCompleted id = true) ∧
        (book.update exercise attempt.passed attempt.now).1 =
          { worked with current := worked.nextIncomplete? } ∨
      (∃ id, book.current = some id ∧ worked.isCompleted id = false) ∧
        (book.update exercise attempt.passed attempt.now).1 = worked := by
  intro worked
  have same : worked.current = book.current := (updateTasks_rest ..).2
  have turned : (book.update exercise attempt.passed attempt.now).1 =
      if (match worked.current with
        | some id => worked.isCompleted id
        | none => true) then { worked with current := worked.nextIncomplete? }
      else worked := rfl
  rw [turned, same]
  cases book.current with
  | none => simp
  | some id => cases done : worked.isCompleted id <;> simp [done]

theorem Keeps.update (keeps : book.Keeps exercise past)
    (distinct : (exercise.tasks.map (·.id)).Nodup) :
    (book.update exercise attempt.passed attempt.now).1.Keeps exercise (attempt :: past) := by
  have worked := keeps.worked attempt distinct
  rcases update_current attempt exercise book with ⟨-, turned⟩ | ⟨-, stayed⟩
  · rw [turned]
    refine ⟨worked.order, worked.known, worked.progress, ?_⟩
    intro id chosen
    have sound := nextIncomplete?_sound _ worked.order
    rw [show nextIncomplete? _ = some id from chosen] at sound
    exact sound.1
  · rw [stayed]
    exact worked

theorem Keeps.choose (keeps : book.Keeps exercise past) (id : String) :
    ((book.setCurrent? id).getD book).Keeps exercise past := by
  unfold setCurrent?
  by_cases known : (book.progress? id).isSome
  · rw [if_pos known]
    refine ⟨keeps.order, keeps.known, keeps.progress, ?_⟩
    intro chosen same
    cases same
    exact keeps.known id known
  · rw [if_neg known]
    exact keeps

theorem Keeps.perform (keeps : book.Keeps exercise past)
    (distinct : (exercise.tasks.map (·.id)).Nodup) (event : Event) :
    (book.perform exercise event).Keeps exercise (note past event) := by
  cases event with
  | worked attempt => exact keeps.update attempt distinct
  | chosen id => exact keeps.choose id

theorem Keeps.performAll (keeps : book.Keeps exercise past)
    (distinct : (exercise.tasks.map (·.id)).Nodup) (events : List Event) :
    (events.foldl (TaskBook.perform exercise) book).Keeps exercise (events.foldl note past) := by
  induction events generalizing book past with
  | nil => exact keeps
  | cons event rest ih => exact ih (keeps.perform distinct event)

theorem Keeps.ids_update (keeps : book.Keeps exercise past)
    (distinct : (exercise.tasks.map (·.id)).Nodup) :
    let after := (book.update exercise attempt.passed attempt.now).1
    (book.update exercise attempt.passed attempt.now).2 =
      (exercise.tasks.filter fun task =>
        after.isCompleted task.id && !book.isCompleted task.id).map (·.id) := by
  intro after
  refine (ids_updateTasks book distinct).trans ?_
  congr 1
  apply List.filter_congr
  intro task member
  have anew : book.anew exercise attempt.passed attempt.now task =
      exercise.standing task (attempt :: past) := by
    unfold TaskBook.anew
    rw [keeps.progress task member]
    exact exercise.renewed_standing task attempt past
  rw [anew, (keeps.update attempt distinct).isCompleted member]

/-- What a run makes of the task that is turned to. -/
theorem Keeps.current_update (keeps : book.Keeps exercise past)
    (distinct : (exercise.tasks.map (·.id)).Nodup) :
    let after := (book.update exercise attempt.passed attempt.now).1
    (match after.current with
    | some id => id ∈ exercise.tasks.map (·.id) ∧ after.isCompleted id = false
    | none => ∀ task ∈ exercise.tasks, after.isCompleted task.id = true) ∧
    (∀ id, book.current = some id → after.isCompleted id = false → after.current = some id) ∧
    ((∀ id, book.current = some id → after.isCompleted id = true) →
      ∀ task, (exercise.tasks.find? fun task => !task.bonus && !after.isCompleted task.id) =
        some task → after.current = some task.id) := by
  intro after
  have order := (keeps.worked attempt distinct).order
  have same := (updateTasks_rest exercise attempt.passed attempt.now book
    exercise.tasks).2
  have turned := update_current attempt exercise book
  change _ ∧ after = _ ∨ _ ∧ after = _ at turned
  clear_value after
  revert order same turned
  generalize (updateTasks exercise attempt.passed attempt.now book exercise.tasks).1 = worked
  rintro order same (⟨complete, rfl⟩ | ⟨⟨id, chosen, incomplete⟩, rfl⟩)
  · refine ⟨nextIncomplete?_sound _ order, ?_, ?_⟩
    · intro id chosen incomplete
      exact absurd (complete id chosen) (Bool.eq_false_iff.mp incomplete)
    · intro _ task first
      refine (nextIncomplete?_eq order).trans ?_
      change (exercise.tasks.find? fun task => !task.bonus && !worked.isCompleted task.id) =
        some task at first
      rw [first]
      rfl
  · rw [same, chosen]
    refine ⟨⟨keeps.current id chosen, incomplete⟩, fun _ same _ => same, ?_⟩
    intro complete
    exact absurd (complete id rfl) (Bool.eq_false_iff.mp incomplete)

end Update

theorem keeps_after (distinct : (exercise.tasks.map (·.id)).Nodup) (events : List Event) :
    (after exercise events).Keeps exercise (attempts events) :=
  (keeps_ofExercise distinct).performAll distinct events

/-- What a run leaves of a task in a book, after the runs before it. -/
structure Reflects (exercise : Exercise) (task : Task) (attempt : Attempt) (past : List Attempt)
    (p : TaskProgress) : Prop where
  passed : p.passed = exercise.through task attempt
  total : p.total = (exercise.required task).length
  completed : p.status = .completed ↔ exercise.completes task attempt = true
  inProgress : p.status = .inProgress ↔ exercise.completes task attempt = false ∧
    ∃ slug ∈ exercise.required task, attempt.passed slug = true
  timed : p.completedAt.isSome ↔ p.status = .completed
  /-- The time of the first run of the series. -/
  since : p.completedAt = (exercise.streak task (attempt :: past)).getLast?.map Attempt.now

theorem reflects_standing (exercise : Exercise) (task : Task) (attempt : Attempt)
    (past : List Attempt) :
    Reflects exercise task attempt past (exercise.standing task (attempt :: past)) := by
  refine ⟨rfl, rfl, exercise.statusOf_completed task attempt,
    exercise.statusOf_inProgress task attempt, ?_, rfl⟩
  rw [exercise.standing_completed]
  simp [Exercise.standing]

/-- The book after any history, and then after one more run. The progress of each task is what that
run says of it, completed since the first run of the series that it ends; the ids given back are
those of the tasks it completed that were not complete before. The task turned to is not complete,
or there is none and all are; it is the one from before as long as that is not complete, and
otherwise the first one that is neither complete nor a bonus, if there is such a task. -/
theorem progress_over_history (exercise : Exercise)
    (distinct : (exercise.tasks.map (·.id)).Nodup) (events : List Event) (attempt : Attempt) :
    let before := after exercise events
    let (book, ids) := before.update exercise attempt.passed attempt.now
    (∀ task ∈ exercise.tasks, ∃ p, book.progress? task.id = some p ∧
      Reflects exercise task attempt (attempts events) p) ∧
    ids = (exercise.tasks.filter fun task =>
      book.isCompleted task.id && !before.isCompleted task.id).map (·.id) ∧
    (match book.current with
    | some id => id ∈ exercise.tasks.map (·.id) ∧ book.isCompleted id = false
    | none => ∀ task ∈ exercise.tasks, book.isCompleted task.id = true) ∧
    (∀ id, before.current = some id → book.isCompleted id = false → book.current = some id) ∧
    ((∀ id, before.current = some id → book.isCompleted id = true) →
      ∀ task, (exercise.tasks.find? fun task => !task.bonus && !book.isCompleted task.id) =
        some task → book.current = some task.id) := by
  intro before
  have kept := keeps_after distinct events
  have keeps := kept.update attempt distinct
  refine ⟨?_, kept.ids_update attempt distinct, kept.current_update attempt distinct⟩
  intro task member
  exact ⟨_, keeps.progress task member, reflects_standing exercise task attempt _⟩

/-- A task that fell out of completion and came back is complete since it came back, and the one
that did not is complete since its first run. -/
theorem greeting_was_done_again :
    let greet : Task := { id := "greet", required := some ["hello"] }
    let wave : Task := { id := "wave", required := some ["wave"], bonus := true }
    let exercise : Exercise := { slug := "manners", tasks := [greet, wave], scenarios := [] }
    let events : List Event := [.worked ⟨fun _ => true, 1⟩, .chosen "greet",
      .worked ⟨fun slug => slug == "wave", 2⟩, .worked ⟨fun _ => true, 3⟩]
    let (book, ids) := (after exercise events).update exercise (fun _ => true) 5
    (exercise.tasks.map (·.id)).Nodup ∧
      (∃ p, book.progress? "greet" = some p ∧ p.status = .completed ∧ p.completedAt = some 3) ∧
      (∃ p, book.progress? "wave" = some p ∧ p.status = .completed ∧ p.completedAt = some 1) ∧
      ids = [] ∧ book.current = none := by
  intro greet wave exercise events
  have distinct : (exercise.tasks.map (·.id)).Nodup := by decide
  obtain ⟨progress, ids, -⟩ := progress_over_history exercise distinct events ⟨fun _ => true, 5⟩
  obtain ⟨p, greeted, reflects⟩ := progress greet (by simp [exercise])
  obtain ⟨q, waved, reflected⟩ := progress wave (by simp [exercise])
  refine ⟨distinct, ⟨p, greeted, reflects.completed.mpr (by decide), ?_⟩,
    ⟨q, waved, reflected.completed.mpr (by decide), ?_⟩, ?_, by decide +kernel⟩
  · rw [reflects.since]
    decide
  · rw [reflected.since]
    decide
  · rw [ids]
    decide +kernel

end TaskBook
end Walkthrough
