import Walkthrough.Host
import Walkthrough.Timeline.Animation

/-! The maze: a character on a grid that programs walk by moving and turning. A step into a wall or
off the grid is a mistake that the learner is told about, and it changes nothing. -/

namespace Walkthrough

inductive Direction where
  | up
  | right
  | down
  | left
deriving DecidableEq, Repr

namespace Direction

def name : Direction → String
  | .up => "up"
  | .right => "right"
  | .down => "down"
  | .left => "left"

def ofName? (name : String) : Option Direction :=
  [.up, .right, .down, .left].find? fun d => d.name == name

def turnLeft : Direction → Direction
  | .down => .right
  | .right => .up
  | .up => .left
  | .left => .down

def turnRight : Direction → Direction
  | .down => .left
  | .left => .up
  | .up => .right
  | .right => .down

/-- Degrees by which a character is turned that faces this way. -/
def rotation : Direction → Int
  | .up => 0
  | .right => 90
  | .down => 180
  | .left => -90

/-- The change of row and column that a step makes. -/
def offset : Direction → Int × Int
  | .up => (-1, 0)
  | .right => (0, 1)
  | .down => (1, 0)
  | .left => (0, -1)

end Direction

/-- A grid of cells, where the character stands and looks, and the animations of what it did. -/
structure Maze where
  grid : List (List Nat) := []
  row : Nat := 0
  column : Nat := 0
  direction : Direction := .down
  /-- The turns so far add up here. A 64-bit number holds them: a turn takes time, and the clock
  overflows first. -/
  rotation : Int := Direction.rotation .down
  animations : List (Animation Micros) := []

namespace Maze

def slug : String := "maze"

/-- The cell that cannot be entered. -/
def wall : Nat := 1

/-- The cell where the maze is won. -/
def target : Nat := 3

def moveMillis : UInt64 := 200

def turnMillis : UInt64 := 150

def placed (maze : Maze) (grid : List (List Nat)) (row column : Nat) (direction : Direction) :
    Maze :=
  { maze with grid, row, column, direction, rotation := direction.rotation }

/-- What is in a cell; nothing outside the grid. -/
def cell? (maze : Maze) (row column : Int) : Option Nat :=
  if row < 0 || column < 0 then none
  else (maze.grid[row.toNat]?).bind fun cells => cells[column.toNat]?

def isWon (maze : Maze) : Bool :=
  maze.cell? maze.row maze.column == some target

/-- The middle of a cell in percent of an edge with so many cells. -/
def percent (index count : Nat) : Float :=
  (Number.ofNat index + 0.5) * 100.0 / Number.ofNat (max count 1)

/-- Adds an animation of the character that starts now. -/
def animate (maze : Maze) (now : Micros) (millis : UInt64) (transformations : Json) : Maze :=
  let animation : Animation Micros :=
    { targets := ".character", offset := now, duration := millis * microsPerMilli, transformations }
  { maze with animations := maze.animations ++ [animation] }

/-- One step forward, or why there is none. -/
def step (maze : Maze) (now : Micros) : Except String Maze :=
  let (down, across) := maze.direction.offset
  let row := (maze.row : Int) + down
  let column := (maze.column : Int) + across
  match maze.cell? row column with
  | none => .error "Cannot move outside the maze!"
  | some cell =>
    if cell = wall then .error "Cannot move into a blocked cell!"
    else
      let moved := { maze with row := row.toNat, column := column.toNat }
      let left := percent moved.column ((moved.grid.headD [0]).length)
      let top := percent moved.row moved.grid.length
      .ok (moved.animate now moveMillis (Json.object [("left", .float left), ("top", .float top)]))

def turn (maze : Maze) (toLeft : Bool) (now : Micros) : Maze :=
  let rotation := if toLeft then maze.rotation - 90 else maze.rotation + 90
  let direction := if toLeft then maze.direction.turnLeft else maze.direction.turnRight
  let turned := { maze with direction, rotation }
  turned.animate now turnMillis (Json.object [("rotate", .int rotation)])

/-- A move as a program makes it: it takes its time unless it fails. -/
def moveForward (host : Host Maze) : Except HostFailure Json × Host Maze :=
  match host.world.step host.time with
  | .ok world => (.ok .null, { host with world }.fastForward moveMillis)
  | .error message => (.error (.logic message), host)

def turnAround (toLeft : Bool) (host : Host Maze) : Except HostFailure Json × Host Maze :=
  (.ok .null, { host with world := host.world.turn toLeft host.time }.fastForward turnMillis)

def functions : List (HostFunction Maze) :=
  [{ name := "move", arity := .exactly 0, description := "Move the character forward one cell"
     run := fun _ => moveForward },
   { name := "turn_left", arity := .exactly 0, description := "Turn the character 90 degrees left"
     run := fun _ => turnAround true },
   { name := "turn_right", arity := .exactly 0, description := "Turn the character 90 degrees right"
     run := fun _ => turnAround false }]

def state (maze : Maze) : Json :=
  Json.object
    [("position", .str (Number.digits maze.row ++ "," ++ Number.digits maze.column)),
     ("direction", .str maze.direction.name),
     ("gameResult", .str (if maze.isWon then "win" else "playing"))]

/-- A maze as a world that programs can act in. -/
def toJson (maze : Maze) : Json :=
  Json.object
    [("slug", .str slug), ("functions", .arr (functions.map HostFunction.toJson)),
     ("state", maze.state),
     ("animations", .arr (maze.animations.map fun a => (a.mapTimes Micros.toMillis).toJson))]

end Maze
end Walkthrough
