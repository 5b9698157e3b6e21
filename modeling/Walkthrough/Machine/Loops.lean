import Walkthrough.Machine.Basic

/-! Blocks and loops. A loop ends normally when its body breaks out of it, passes a return on, and
otherwise goes to its next round. The loops here are the only ones a program can run: the first two
go down on what they run through, the third on the number of rounds the run may still begin. -/

namespace Walkthrough.Exec

variable {W α : Type}

/-- Runs something in a block of its own. -/
def inBlock (body : Exec W α) : Exec W α := do
  openBlock
  let result ← body
  closeBlock
  return result

/-- Runs a loop with the loop counted as open. -/
def inLoop (loop : Exec W α) : Exec W α := do
  enterLoop
  let result ← loop
  leaveLoop
  return result

/-- One round of a loop that names its rounds: counted, and in a block of its own that starts with
the frame of the round. -/
def inRound (position : Position) (begin : Exec W Unit) (body : Exec W Completion) :
    Exec W Completion := do
  countIteration position
  inBlock do
    begin
    body

/-- A body run for the rounds `first`, `first + 1` and so on, `count` of them. -/
def loopTimes (body : Nat → Exec W Completion) : Nat → Nat → Exec W Completion
  | _, 0 => pure .normal
  | first, count + 1 => do
    match ← body first with
    | .broke => pure .normal
    | .returned value => pure (.returned value)
    | .normal => loopTimes body (first + 1) count
    | .continued => loopTimes body (first + 1) count

def loopOver (body : α → Exec W Completion) : List α → Exec W Completion
  | [] => pure .normal
  | item :: rest => do
    match ← body item with
    | .broke => pure .normal
    | .returned value => pure (.returned value)
    | .normal => loopOver body rest
    | .continued => loopOver body rest

/-- A body run as long as a test holds, with an update after each round. The bound is the number of
rounds that the run may still begin: when none is left, one more round is one too many. -/
def loopWhile (position : Position) (test : Exec W Bool) (body : Exec W Completion)
    (update : Exec W Unit) : Nat → Exec W Completion
  | 0 => do
    if ← test then
      countIteration position
      raise (.tooManyIterations (← features).maxIterations.toNat) position
    else pure .normal
  | bound + 1 => do
    if ← test then
      countIteration position
      match ← body with
      | .broke => pure .normal
      | .returned value => pure (.returned value)
      | .normal =>
        update
        loopWhile position test body update bound
      | .continued =>
        update
        loopWhile position test body update bound
    else pure .normal

/-- What a loop over a value runs through: the items of a list, the characters of a text. -/
def iterable? (h : Heap) : Value → Option (List Value)
  | .list cell => some (h.items cell)
  | .text s => some (s.toList.map fun c => .text c.toString)
  | _ => none

end Walkthrough.Exec
