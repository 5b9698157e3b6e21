import Walkthrough.Exercise.Basic

/-! The exercises that come with the program. -/

namespace Walkthrough

namespace MazeExercise

def scenario (slug name taskId : String) (grid : List (List Nat)) (start : Nat × Nat)
    (direction : Direction) (goal : Nat × Nat) : Scenario :=
  { slug
    name
    taskId
    kind := .visual
      { prepare := fun maze => maze.placed grid start.1 start.2 direction
        expectations := fun maze =>
          [{ pass := maze.row == goal.1 && maze.column == goal.2
             errorHtml := "You didn't reach the end of the maze." }] } }

def straight : Scenario :=
  scenario "straight-down" "Walk down a straight corridor" "straight-path"
    [[1, 2, 1], [1, 0, 1], [1, 0, 1], [1, 3, 1]] (0, 1) .down (3, 1)

def corner : Scenario :=
  scenario "corner" "Turn the corner" "corner"
    [[2, 0, 0], [1, 1, 0], [1, 1, 3]] (0, 0) .right (2, 2)

def stub : Language → String
  | .jikiScript => "// Guide the character to the target\nmove()\n"
  | .javaScript => "// Guide the character to the target\nmove();\n"

def exercise : Exercise :=
  { slug := Maze.slug
    title := "Solve the Maze"
    instructions := "Use move(), turn_left() and turn_right() to reach the target cell."
    world := some {}
    tasks :=
      [{ id := "straight-path", name := "A straight path"
         description := "Move forward to the end of the maze."
         hints := ["Call move() once per cell"], required := some ["straight-down"] },
       { id := "corner", name := "Around the corner", description := "Turn to follow the path."
         hints := ["Turning left while facing right points you up"] }]
    scenarios := [straight, corner]
    stub }

end MazeExercise

namespace Raindrops

def concatenate {W : Type} : HostFunction W :=
  { name := "concatenate", arity := .atLeast 1, description := "Join strings together"
    run := fun args host => (.ok (.str (String.join (args.map Snapshot.output))), host) }

def numberToString {W : Type} : HostFunction W :=
  { name := "number_to_string", arity := .exactly 1, description := "Turn a number into a string"
    run := fun args host =>
      match args with
      | .number x :: _ => (.ok (.str (Number.text x)), host)
      | arg :: _ =>
        (.error (.logic ("number_to_string expects a number, not " ++ arg.typeName ++ ".")), host)
      | [] => (.ok .null, host) }

def scenario (taskId : String) (n : Nat) (expected : String) (checks : List CodeCheck) : Scenario :=
  { slug := "raindrops-" ++ Number.digits n
    name := "raindrops(" ++ Number.digits n ++ ")"
    description := Number.digits n ++ " gives \"" ++ expected ++ "\""
    taskId
    kind := .io
      { call := { name := "raindrops", args := [.nat n] }, expected := .str expected, checks } }

def usesNumberToString : CodeCheck :=
  { errorHtml := "Use <code>number_to_string</code> to build the fallback."
    passes := fun view => .ok (0 < view.callCount "number_to_string") }

def stub : Language → String
  | .jikiScript => "function raindrops with number do\n  return \"\"\nend\n"
  | .javaScript => "function raindrops(number) \x7b\n  return \"\";\n\x7d\n"

def exercise : Exercise :=
  { slug := "raindrops"
    title := "Raindrops"
    instructions := "Return the raindrop sounds for a number's factors of 3, 5 and 7."
    functions := [concatenate, numberToString]
    tasks :=
      [{ id := "single-sounds", name := "One factor"
         description := "Handle numbers with a single factor." },
       { id := "combined-sounds", name := "Several factors"
         description := "Combine sounds in order."
         hints := ["Check every factor, not just the first one that matches"] },
       { id := "no-sound", name := "No factors"
         description := "Fall back to the number itself.", bonus := true }]
    scenarios :=
      [scenario "single-sounds" 3 "Pling" [], scenario "single-sounds" 5 "Plang" [],
       scenario "single-sounds" 7 "Plong" [], scenario "combined-sounds" 15 "PlingPlang" [],
       scenario "combined-sounds" 105 "PlingPlangPlong" [],
       scenario "no-sound" 34 "34" [usesNumberToString]]
    stub }

end Raindrops

namespace Exercise

/-- Every exercise, in the order in which they are offered. -/
def catalogue : List Exercise :=
  [MazeExercise.exercise, Raindrops.exercise]

def slugs : List String :=
  catalogue.map (·.slug)

def find? (slug : String) : Option Exercise :=
  catalogue.find? fun e => e.slug == slug

end Exercise
end Walkthrough
