import Walkthrough.Exercise.Scenario

/-! Exercises: tasks for the learner, the scenarios that decide them, and what programs may use. -/

namespace Walkthrough

structure Task where
  id : String
  name : String := ""
  description : String := ""
  hints : List String := []
  /-- The scenarios that have to pass; without a list, all that are tagged with the task. -/
  required : Option (List String) := none
  bonus : Bool := false
deriving DecidableEq, Repr

def Task.toJson (t : Task) : Json :=
  Json.object
    [("id", .str t.id), ("name", .str t.name), ("description", .str t.description),
     ("hints", Json.strings t.hints), ("required", Json.optional Json.strings t.required),
     ("bonus", .bool t.bonus)]

structure Exercise where
  slug : String
  title : String := ""
  instructions : String := ""
  /-- The world that visual scenarios start from, if there is one. -/
  world : Option Maze := none
  /-- What programs may call in scenarios without a world. -/
  functions : List (HostFunction Unit) := []
  tasks : List Task
  scenarios : List Scenario
  /-- The code that a learner starts with. -/
  stub : Language → String := fun _ => ""

namespace Exercise

/-- The slugs of the scenarios that have to pass for a task. -/
def required (exercise : Exercise) (task : Task) : List String :=
  task.required.getD
    ((exercise.scenarios.filter fun s => s.taskId == task.id).map (·.slug))

def task? (exercise : Exercise) (id : String) : Option Task :=
  exercise.tasks.find? fun t => t.id == id

/-- The exercise with only the given scenarios, and without the tasks that none of them is tagged
with. -/
def keeping (exercise : Exercise) (slugs : List String) : Exercise :=
  let scenarios := exercise.scenarios.filter fun s => slugs.contains s.slug
  { exercise with
    scenarios
    tasks := exercise.tasks.filter fun t => scenarios.any fun s => s.taskId == t.id }

def entries (exercise : Exercise) : List (String × Json) :=
  [("slug", .str exercise.slug), ("title", .str exercise.title),
   ("instructions", .str exercise.instructions),
   ("tasks", .arr (exercise.tasks.map Task.toJson)),
   ("scenarios", .arr (exercise.scenarios.map Scenario.toJson)),
   ("stubs", Json.object (Language.all.map fun l => (l.name, .str (exercise.stub l)))),
   ("io_functions", .arr (exercise.functions.map HostFunction.toJson)),
   ("world", Json.optional Maze.toJson exercise.world)]

end Exercise
end Walkthrough
