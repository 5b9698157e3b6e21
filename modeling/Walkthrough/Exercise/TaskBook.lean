import Walkthrough.Exercise.Basic

/-! How far a learner has come with the tasks of an exercise. Progress is worked out anew from every
run; only the time of completion is kept, for as long as the task stays complete. -/

namespace Walkthrough

inductive TaskStatus where
  | notStarted
  | inProgress
  | completed
deriving DecidableEq, Repr

def TaskStatus.name : TaskStatus → String
  | .notStarted => "not_started"
  | .inProgress => "in_progress"
  | .completed => "completed"

structure TaskProgress where
  taskId : String
  status : TaskStatus := .notStarted
  /-- The required scenarios that passed, each once, in the order in which they are required. -/
  passed : List String := []
  total : Nat := 0
  /-- When the task was completed, in seconds. -/
  completedAt : Option Int := none
deriving DecidableEq, Repr

structure TaskBook where
  /-- The ids of the tasks and whether each is a bonus, as they were at the start. -/
  order : List (String × Bool)
  progress : Table TaskProgress
  current : Option String := none
deriving DecidableEq

namespace TaskBook

def progress? (book : TaskBook) (id : String) : Option TaskProgress :=
  book.progress.get? id

def status? (book : TaskBook) (id : String) : Option TaskStatus :=
  (book.progress? id).map (·.status)

def isCompleted (book : TaskBook) (id : String) : Bool :=
  book.status? id == some .completed

def completedIds (book : TaskBook) : List String :=
  (book.order.map (·.1)).filter book.isCompleted

def allCompleted (book : TaskBook) : Bool :=
  book.order.all fun entry => book.isCompleted entry.1

/-- The first task that is not complete, bonus tasks after all others. -/
def nextIncomplete? (book : TaskBook) : Option String :=
  let first (bonus : Bool) : Option String :=
    (book.order.find? fun entry => entry.2 == bonus && !book.isCompleted entry.1).map (·.1)
  (first false).or (first true)

def ofExercise (exercise : Exercise) : TaskBook :=
  let start (task : Task) : TaskProgress :=
    { taskId := task.id, total := (exercise.required task).length }
  let book : TaskBook :=
    { order := exercise.tasks.map fun task => (task.id, task.bonus)
      progress := Table.ofList (exercise.tasks.map fun task => (task.id, start task)) }
  { book with current := book.nextIncomplete? }

/-- The status of a task by how many of its scenarios passed; without scenarios it never starts. -/
def statusOf (required passed : List String) : TaskStatus :=
  if !required.isEmpty && passed.length == required.length then .completed
  else if !passed.isEmpty then .inProgress
  else .notStarted

/-- The progress of a task after a run, from its progress before. -/
def renewed (before : TaskProgress) (required : List String) (passed : String → Bool) (now : Int) :
    TaskProgress :=
  let through := (required.filter passed).eraseDups
  let status := statusOf required through
  { taskId := before.taskId
    status
    passed := through
    total := required.length
    completedAt :=
      if status = .completed then
        if before.status = .completed then before.completedAt else some now
      else none }

/-- Works one task into the book, and tells whether it has become complete. -/
def updateTask (book : TaskBook) (exercise : Exercise) (passed : String → Bool) (now : Int)
    (task : Task) : TaskBook × Bool :=
  let before := (book.progress? task.id).getD { taskId := task.id }
  let after := renewed before (exercise.required task) passed now
  ({ book with progress := book.progress.insert task.id after },
    after.status == .completed && before.status != .completed)

/-- Works tasks into the book one after the other, and gives the ids of those that became
complete. -/
def updateTasks (exercise : Exercise) (passed : String → Bool) (now : Int) :
    TaskBook → List Task → TaskBook × List String
  | book, [] => (book, [])
  | book, task :: rest =>
    let (book, isNew) := book.updateTask exercise passed now task
    let (book, ids) := updateTasks exercise passed now book rest
    (book, if isNew then task.id :: ids else ids)

/-- Works a run into the book. The current task changes only when it is complete or none. -/
def update (book : TaskBook) (exercise : Exercise) (passed : String → Bool) (now : Int) :
    TaskBook × List String :=
  let (book, ids) := updateTasks exercise passed now book exercise.tasks
  let isDone := match book.current with
    | some id => book.isCompleted id
    | none => true
  (if isDone then { book with current := book.nextIncomplete? } else book, ids)

/-- Turns to a task of the book; `none` if there is no such task. -/
def setCurrent? (book : TaskBook) (id : String) : Option TaskBook :=
  if (book.progress? id).isSome then some { book with current := some id } else none

end TaskBook
end Walkthrough
