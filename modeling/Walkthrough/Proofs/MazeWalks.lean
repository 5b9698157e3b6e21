import Mathlib.Data.Int.ModEq
import Walkthrough.Exercise.Maze
import Walkthrough.Proofs.HostCalls

/-! Walks through a maze. Whatever a program does, its character stands where the moves and turns
that succeeded have led it, on a cell that is no wall; a move that fails changes nothing. Each of
the others leaves one animation, which starts when it is called and takes as long as the call. So
animations follow each other, up to the moment when the clock has no room for more time, at which
the run breaks off. -/

namespace Walkthrough

/-- A place on a plane and the way ahead, as a step of one row or column. -/
structure Pose where
  row : Int
  column : Int
  heading : Int × Int

namespace Pose

def forward (p : Pose) : Pose :=
  { p with row := p.row + p.heading.1, column := p.column + p.heading.2 }

/-- Rows are counted down and columns to the right. -/
def left (p : Pose) : Pose :=
  { p with heading := (-p.heading.2, p.heading.1) }

def right (p : Pose) : Pose :=
  { p with heading := (p.heading.2, -p.heading.1) }

/-- What the function of a name does. -/
def obey (p : Pose) (name : String) : Pose :=
  if name = "move" then p.forward
  else if name = "turn_left" then p.left
  else if name = "turn_right" then p.right
  else p

end Pose

/-- The cell is inside the grid, and no wall. -/
def IsOpen (grid : List (List Nat)) (row column : Nat) : Prop :=
  ∃ cells cell, grid[row]? = some cells ∧ cells[column]? = some cell ∧ cell ≠ Maze.wall

namespace Direction

theorem offset_turnLeft (d : Direction) :
    d.turnLeft.offset = (-d.offset.2, d.offset.1) := by
  cases d <;> rfl

theorem offset_turnRight (d : Direction) :
    d.turnRight.offset = (d.offset.2, -d.offset.1) := by
  cases d <;> rfl

theorem rotation_turnLeft (d : Direction) :
    d.turnLeft.rotation ≡ d.rotation - 90 [ZMOD 360] := by
  cases d <;> decide

theorem rotation_turnRight (d : Direction) :
    d.turnRight.rotation ≡ d.rotation + 90 [ZMOD 360] := by
  cases d <;> decide

theorem natAbs_rotation_le (d : Direction) : d.rotation.natAbs ≤ 180 := by
  cases d <;> decide

end Direction

namespace Maze

def pose (maze : Maze) : Pose :=
  ⟨maze.row, maze.column, maze.direction.offset⟩

theorem cell?_eq_some {maze : Maze} {row column : Int} {cell : Nat} :
    maze.cell? row column = some cell ↔ 0 ≤ row ∧ 0 ≤ column ∧
      ∃ cells, maze.grid[row.toNat]? = some cells ∧ cells[column.toNat]? = some cell := by
  unfold cell?
  split
  · next outside =>
      simp only [Bool.or_eq_true, decide_eq_true_eq] at outside
      constructor
      · intro found
        cases found
      · rintro ⟨row, column, -⟩
        omega
  · next inside =>
      simp only [Bool.or_eq_true, decide_eq_true_eq, not_or, Int.not_lt] at inside
      rw [Option.bind_eq_some_iff]
      exact ⟨fun found => ⟨inside.1, inside.2, found⟩, fun found => found.2.2⟩

/-- The second maze is what the function of a name makes of the first one at a time: the animation
is queued for then. -/
structure Obeys (name : String) (now : Micros) (maze maze' : Maze) (animation : Animation Micros) :
    Prop where
  grid : maze'.grid = maze.grid
  pose : maze'.pose = maze.pose.obey name
  isOpen : IsOpen maze.grid maze.row maze.column → IsOpen maze'.grid maze'.row maze'.column
  rotation : maze.rotation ≡ maze.direction.rotation [ZMOD 360] →
    maze'.rotation ≡ maze'.direction.rotation [ZMOD 360]
  turned : maze'.rotation.natAbs ≤ maze.rotation.natAbs + 90
  animations : maze'.animations = maze.animations ++ [animation]
  offset : animation.offset = now

theorem obeys_of_step {maze moved : Maze} {now : Micros} (stepped : maze.step now = .ok moved) :
    ∃ animation, maze.Obeys "move" now moved animation ∧
      animation.duration = moveMillis * microsPerMilli := by
  unfold step at stepped
  dsimp only at stepped
  split at stepped
  · cases stepped
  · next cell found =>
      split at stepped
      · cases stepped
      · next free =>
          cases stepped
          obtain ⟨row, column, cells, here, inside⟩ := cell?_eq_some.mp found
          refine ⟨_, ⟨rfl, ?_, fun _ => ⟨cells, cell, here, inside, free⟩, id, Nat.le_add_right _ _,
            rfl, rfl⟩, rfl⟩
          simp only [pose, animate, Pose.obey, Pose.forward, if_true, Pose.mk.injEq, and_true]
          exact ⟨Int.toNat_of_nonneg row, Int.toNat_of_nonneg column⟩

theorem obeys_turn (maze : Maze) (toLeft : Bool) (now : Micros) :
    ∃ animation, maze.Obeys (if toLeft then "turn_left" else "turn_right") now
      (maze.turn toLeft now) animation ∧ animation.duration = turnMillis * microsPerMilli := by
  cases toLeft with
  | true =>
      refine ⟨_, ⟨rfl, ?_, id, fun upright => ?_, ?_, rfl, rfl⟩, rfl⟩
      · change Pose.mk _ _ maze.direction.turnLeft.offset = _
        rw [Direction.offset_turnLeft]
        rfl
      · exact (upright.sub_right 90).trans maze.direction.rotation_turnLeft.symm
      · exact Int.natAbs_sub_le maze.rotation 90
  | false =>
      refine ⟨_, ⟨rfl, ?_, id, fun upright => ?_, ?_, rfl, rfl⟩, rfl⟩
      · change Pose.mk _ _ maze.direction.turnRight.offset = _
        rw [Direction.offset_turnRight]
        rfl
      · exact (upright.add_right 90).trans maze.direction.rotation_turnRight.symm
      · exact Int.natAbs_add_le maze.rotation 90

/-- The call has queued the animation, and takes as long as that. -/
structure Queues (c : HostCall Maze) (animation : Animation Micros) : Prop where
  obeys : c.host.world.Obeys c.function.name c.host.time c.after.world animation
  time : c.after.time = (c.host.pass animation.duration).time
  overflowed : c.after.overflowed = (c.host.pass animation.duration).overflowed
  duration : 150000 ≤ animation.duration.toNat ∧ animation.duration.toNat ≤ 200000

/-- A call in a maze succeeds and queues an animation, or it is a move that fails, and then nothing
has changed. -/
theorem call_cases {c : HostCall Maze} (offered : c.function ∈ functions) :
    (c.succeeded = true ∧ ∃ animation, Queues c animation) ∨
    (c.succeeded = false ∧ c.function.name = "move" ∧ c.after = c.host) := by
  obtain ⟨f, args, host⟩ := c
  unfold HostCall.succeeded HostCall.result
  simp only [functions, List.mem_cons, List.not_mem_nil, or_false] at offered
  rcases offered with rfl | rfl | rfl
  · cases stepped : host.world.step host.time with
    | error message =>
        have failed : moveForward host = (.error (.logic message), host) := by
          simp only [moveForward, stepped]
        exact Or.inr ⟨congrArg (·.1.isOk) failed, rfl, congrArg Prod.snd failed⟩
    | ok moved =>
        have walked : moveForward host =
            (.ok .null, { host with world := moved }.fastForward moveMillis) := by
          simp only [moveForward, stepped]
        obtain ⟨animation, obeys, lasts⟩ := obeys_of_step stepped
        refine Or.inl ⟨congrArg (·.1.isOk) walked, animation, ?_⟩
        constructor
        · unfold HostCall.after
          dsimp only
          rw [walked]
          exact obeys
        · unfold HostCall.after
          dsimp only
          rw [walked, lasts]
          rfl
        · unfold HostCall.after
          dsimp only
          rw [walked, lasts]
          rfl
        · rw [lasts]
          decide
  · obtain ⟨animation, obeys, lasts⟩ := obeys_turn host.world true host.time
    exact Or.inl ⟨rfl, animation, obeys, by rw [lasts]; rfl, by rw [lasts]; rfl,
      by rw [lasts]; decide⟩
  · obtain ⟨animation, obeys, lasts⟩ := obeys_turn host.world false host.time
    exact Or.inl ⟨rfl, animation, obeys, by rw [lasts]; rfl, by rw [lasts]; rfl,
      by rw [lasts]; decide⟩

/-- The time that frames and animations take altogether. -/
def elapsed (cost : Micros) (n : Nat) (animations : List (Animation Micros)) : Nat :=
  n * cost.toNat + (animations.map fun animation => animation.duration.toNat).sum

/-- The first animation has ended when the second one starts. -/
def Before (first second : Animation Micros) : Prop :=
  first.offset.toNat + first.duration.toNat ≤ second.offset.toNat

/-- What the clock of a maze tells as long as it has not overflowed: the time that so many frames
and the animations take. Each animation has ended before the next one starts, and the last one by
now. The rotation goes by no more than a quarter turn for each, which takes its time, too. -/
structure OnTime (cost : Micros) (n : Nat) (host : Host Maze) : Prop where
  clock : host.time.toNat = elapsed cost n host.world.animations
  queued : host.world.animations.Pairwise Before
  ended : ∀ animation ∈ host.world.animations,
    animation.offset.toNat + animation.duration.toNat ≤ host.time.toNat
  turned : 1000 * host.world.rotation.natAbs ≤ host.time.toNat + 180000

/-- A host in the maze that was set up, after the calls and so many frames. -/
structure Walked (setup : Setup Maze) (past : List (HostCall Maze)) (n : Nat) (host : Host Maze) :
    Prop where
  grid : host.world.grid = setup.world.grid
  isOpen : IsOpen host.world.grid host.world.row host.world.column
  pose : host.world.pose =
    ((past.filter (·.succeeded)).map (·.function.name)).foldl Pose.obey setup.world.pose
  rotation : host.world.rotation ≡ host.world.direction.rotation [ZMOD 360]
  animations : host.world.animations.map (fun animation => (animation.offset, animation.finish)) =
    (past.filter (·.succeeded)).map fun c => (c.host.time, c.after.time)
  failures : ∀ c ∈ past, c.succeeded = false → c.function.name = "move" ∧ c.after = c.host
  onTime : host.overflowed = false → OnTime setup.features.timePerFrame n host

section Walking

variable {setup : Setup Maze} {past : List (HostCall Maze)} {n : Nat} {host : Host Maze}

theorem elapsed_succ (cost : Micros) (n : Nat) (animations : List (Animation Micros)) :
    elapsed cost (n + 1) animations = elapsed cost n animations + cost.toNat := by
  unfold elapsed
  rw [Nat.succ_mul]
  omega

theorem elapsed_append (cost : Micros) (n : Nat) (animations : List (Animation Micros))
    (animation : Animation Micros) : elapsed cost n (animations ++ [animation]) =
      elapsed cost n animations + animation.duration.toNat := by
  unfold elapsed
  rw [List.map_append, List.sum_append, List.map_singleton, List.sum_singleton]
  omega

/-- A rotation is a 64-bit number on a clock that has not overflowed. -/
theorem OnTime.rotation_lt {cost : Micros} (h : OnTime cost n host) :
    host.world.rotation.natAbs < 2 ^ 63 := by
  have last := host.time.toNat_lt
  have turned := h.turned
  omega

theorem OnTime.passes {cost : Micros} (h : OnTime cost n host)
    (whole : (host.pass cost).overflowed = false) : OnTime cost (n + 1) (host.pass cost) := by
  obtain ⟨-, later⟩ := Host.time_pass whole
  refine ⟨?_, h.queued, fun animation member => ?_, ?_⟩
  · rw [later, h.clock]
    exact (elapsed_succ _ _ _).symm
  · rw [later]
    exact (h.ended animation member).trans (Nat.le_add_right _ _)
  · rw [later, Nat.add_right_comm]
    exact h.turned.trans (Nat.le_add_right _ _)

theorem OnTime.queues {cost : Micros} {c : HostCall Maze} {animation : Animation Micros}
    (h : OnTime cost n c.host) (queues : Queues c animation)
    (whole : c.after.overflowed = false) : OnTime cost n c.after := by
  obtain ⟨obeys, time, overflowed, lasts, -⟩ := queues
  have later : c.after.time.toNat = c.host.time.toNat + animation.duration.toNat :=
    (congrArg UInt64.toNat time).trans (Host.time_pass (overflowed.symm.trans whole)).2
  constructor
  · rw [later, h.clock, obeys.animations, elapsed_append]
  · rw [obeys.animations]
    refine List.pairwise_append.mpr ⟨h.queued, List.pairwise_singleton _ _, ?_⟩
    intro first member second isLast
    rw [List.mem_singleton.mp isLast, Before, obeys.offset]
    exact h.ended first member
  · rw [obeys.animations, later]
    intro other member
    rcases List.mem_append.mp member with before | isLast
    · exact (h.ended other before).trans (Nat.le_add_right _ _)
    · rw [List.mem_singleton.mp isLast, obeys.offset]
  · have before := h.turned
    have turned := obeys.turned
    omega

theorem walked_start (fresh : setup.world.animations = [])
    (isOpen : IsOpen setup.world.grid setup.world.row setup.world.column)
    (upright : setup.world.rotation ≡ setup.world.direction.rotation [ZMOD 360])
    (turned : setup.world.rotation.natAbs ≤ 180) :
    Walked setup [] 0 { seed := setup.seed, world := setup.world } where
  grid := rfl
  isOpen := isOpen
  pose := rfl
  rotation := upright
  animations := by rw [fresh]; rfl
  failures := by rintro _ ⟨⟩
  onTime _ := by
    refine ⟨?_, ?_, ?_, (Nat.mul_le_mul_left 1000 turned).trans (Nat.le_add_left _ _)⟩
    · rw [fresh, elapsed, Nat.zero_mul]
      rfl
    · rw [fresh]
      exact .nil
    · rw [fresh]
      rintro _ ⟨⟩

theorem Walked.passes (h : Walked setup past n host) :
    Walked setup past (n + 1) (host.pass setup.features.timePerFrame) where
  grid := h.grid
  isOpen := h.isOpen
  pose := h.pose
  rotation := h.rotation
  animations := h.animations
  failures := h.failures
  onTime whole := (h.onTime (Host.time_pass whole).1).passes whole

theorem Walked.writes (h : Walked setup past n host) (output : String) :
    Walked setup past n (host.log output) := by
  refine ⟨h.grid, h.isOpen, h.pose, h.rotation, h.animations, h.failures, fun whole => ?_⟩
  obtain ⟨clock, queued, ended, turned⟩ := h.onTime whole
  exact ⟨clock, queued, ended, turned⟩

theorem Walked.fails {c : HostCall Maze} (h : Walked setup past n c.host)
    (failed : c.succeeded = false) (move : c.function.name = "move") (still : c.after = c.host) :
    Walked setup (past ++ [c]) n c.after := by
  have successes : (past ++ [c]).filter (·.succeeded) = past.filter (·.succeeded) := by
    rw [List.filter_append, List.filter_singleton, failed]
    exact List.append_nil _
  rw [still]
  refine ⟨h.grid, h.isOpen, ?_, h.rotation, ?_, ?_, h.onTime⟩
  · rw [successes]
    exact h.pose
  · rw [successes]
    exact h.animations
  · intro other member
    rcases List.mem_append.mp member with before | last
    · exact h.failures other before
    · rw [List.mem_singleton.mp last]
      exact fun _ => ⟨move, still⟩

theorem Walked.acts {c : HostCall Maze} (h : Walked setup past n c.host)
    (succeeded : c.succeeded = true) {animation : Animation Micros}
    (queues : Queues c animation) : Walked setup (past ++ [c]) n c.after := by
  have successes : (past ++ [c]).filter (·.succeeded) = past.filter (·.succeeded) ++ [c] := by
    rw [List.filter_append, List.filter_singleton, succeeded]
    rfl
  have obeys := queues.obeys
  refine ⟨obeys.grid.trans h.grid, obeys.isOpen h.isOpen, ?_, obeys.rotation h.rotation, ?_, ?_,
    fun whole => ?_⟩
  · rw [successes, List.map_append, List.foldl_append, ← h.pose]
    exact obeys.pose
  · rw [obeys.animations, successes, List.map_append, List.map_append, h.animations]
    rw [List.map_singleton, List.map_singleton, Animation.finish, obeys.offset, queues.time]
    rfl
  · intro other member failed
    rcases List.mem_append.mp member with before | last
    · exact h.failures other before failed
    · rw [List.mem_singleton.mp last, succeeded] at failed
      cases failed
  · have before := (Host.time_pass (queues.overflowed.symm.trans whole)).1
    exact (h.onTime before).queues queues whole

/-- Whatever happens to the host of a maze, its character has walked. -/
theorem Walked.ofLives (functions_eq : setup.functions = functions)
    (begun : Walked setup [] 0 { seed := setup.seed, world := setup.world })
    (lives : Host.Lives setup past n host) : Walked setup past n host := by
  induction lives with
  | begins => exact begun
  | passes _ _ ih => exact ih.passes
  | writes output _ ih => exact ih.writes output
  | calls c _ _ offered ih =>
      rw [functions_eq] at offered
      obtain ⟨succeeded, animation, queues⟩ | ⟨failed, move, still⟩ := call_cases offered
      · exact ih.acts succeeded queues
      · exact ih.fails failed move still

/-- The clock does not overflow if the limit leaves room for one more frame or call. -/
theorem whole_of_lives (functions_eq : setup.functions = functions)
    (room : setup.features.maxTime.toNat + max setup.features.timePerFrame.toNat 200000 < 2 ^ 64)
    (lives : Host.Lives setup past n host) : host.overflowed = false := by
  induction lives with
  | begins => rfl
  | passes _ inTime ih =>
      rw [UInt64.le_iff_toNat_le] at inTime
      exact Host.overflowed_pass ih (by omega)
  | writes output _ ih => exact ih
  | calls c _ inTime offered ih =>
      rw [UInt64.le_iff_toNat_le] at inTime
      rw [functions_eq] at offered
      obtain ⟨-, animation, queues⟩ | ⟨-, -, still⟩ := call_cases offered
      · have short := queues.duration.2
        rw [queues.overflowed]
        exact Host.overflowed_pass ih (by omega)
      · rw [still]
        exact ih

end Walking

/-- Any program of either language in any maze, from a cell that is no wall. At every moment of the
run, and so behind every call, the character stands on an open cell, where the moves and turns that
succeeded lead; it is turned as it looks; there is one animation for each of these calls, from its
beginning to its end; and a call that failed was a move that left the host as it was. As long as the
clock has not overflowed, at which the run breaks off, an animation is queued when those before it
have ended. It does not overflow if the limit leaves room for one more frame or call. -/
theorem mazes_are_walked (features : Features) (seed : UInt64) (grid : List (List Nat))
    (row column : Nat) (direction : Direction) (isOpen : IsOpen grid row column) :
    let setup : Setup Maze :=
      { features, functions, seed, world := placed {} grid row column direction }
    (∀ past n host, Host.Lives setup past n host → Walked setup past n host) ∧
    (∀ past n host, Host.Lives setup past n host → host.overflowed = false →
      host.world.animations.Pairwise Before ∧ host.world.rotation.natAbs < 2 ^ 63) ∧
    (features.maxTime.toNat + max features.timePerFrame.toNat 200000 < 2 ^ 64 →
      ∀ past n host, Host.Lives setup past n host → host.overflowed = false) ∧
    ∀ language source call, ∃ past n host, Host.Lives setup past n host ∧
      (Language.outcome language source setup call).Recounts past n host := by
  intro setup
  have begun : Walked setup [] 0 { seed := setup.seed, world := setup.world } :=
    walked_start rfl isOpen rfl direction.natAbs_rotation_le
  have walked (past n host) (lives : Host.Lives setup past n host) : Walked setup past n host :=
    .ofLives rfl begun lives
  refine ⟨walked, fun past n host lives whole => ?_, fun room past n host lives => ?_,
    fun language source call => ?_⟩
  · have onTime := (walked past n host lives).onTime whole
    exact ⟨onTime.queued, onTime.rotation_lt⟩
  · exact whole_of_lives rfl room lives
  · exact Language.outcome_recounts language source setup call

def aroundTheCorner : String :=
  "move()\nturn_right()\nmove()\nmove()"

theorem corner_is_walked :
    let setup : Setup Maze :=
      { functions, world := placed {} [[2, 0, 1], [1, 0, 3]] 0 0 .right }
    let o := Language.outcome .jikiScript aroundTheCorner setup none
    IsOpen [[2, 0, 1], [1, 0, 3]] 0 0 ∧ (o.world.row, o.world.column) = (1, 1) ∧
      o.success = false ∧ o.world.animations.length = 3 ∧
      o.world.animations.Pairwise Before ∧
      ∃ past n host, Host.Lives setup past n host ∧ o.Recounts past n host ∧
        Walked setup past n host ∧ (past.filter (·.succeeded)).length = 3 := by
  intro setup o
  have isOpen : IsOpen [[2, 0, 1], [1, 0, 3]] 0 0 := ⟨_, _, rfl, rfl, by decide⟩
  have three : o.world.animations.length = 3 := by decide +kernel
  obtain ⟨walked, ordered, whole, recounted⟩ :=
    mazes_are_walked {} 0 [[2, 0, 1], [1, 0, 3]] 0 0 .right isOpen
  obtain ⟨past, n, host, lives, recounts⟩ := recounted .jikiScript aroundTheCorner none
  have inOrder := (ordered past n host lives (whole (by decide) past n host lives)).1
  have each := congrArg List.length (walked past n host lives).animations
  rw [List.length_map, List.length_map] at each
  have left : o.world.animations.length = host.world.animations.length := by
    rw [recounts.world]
  refine ⟨isOpen, by decide +kernel, by decide +kernel, three, ?_, past, n, host, lives, recounts,
    walked past n host lives, each.symm.trans (left.symm.trans three)⟩
  rw [recounts.world]
  exact inOrder

end Maze
end Walkthrough
