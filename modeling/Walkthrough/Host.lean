import Walkthrough.Chance
import Walkthrough.Frame

/-! The host of a run: virtual time, the console, a source of chance, and a world of the host's own
that programs change through the functions it offers. A host function sees frozen arguments and
this state only, never the program's cells or the switches it runs under. -/

namespace Walkthrough

inductive Arity where
  | exactly (n : Nat)
  | between (low high : Nat)
  | atLeast (n : Nat)
deriving DecidableEq, Repr

namespace Arity

def accepts : Arity → Nat → Bool
  | .exactly n, count => count == n
  | .between low high, count => low ≤ count && count ≤ high
  | .atLeast n, count => n ≤ count

def text : Arity → String
  | .exactly n => Number.digits n
  | .between low high => "between " ++ Number.digits low ++ " and " ++ Number.digits high
  | .atLeast n => "at least " ++ Number.digits n

end Arity

/-- What a host function may read and change. -/
structure Host (W : Type) where
  time : Micros := 0
  /-- More time has passed than the clock can tell. A run that checks its sums breaks off there; one
  that does not goes on with what is left of the sum. -/
  overflowed : Bool := false
  console : Array LogLine := #[]
  seed : UInt64 := 0
  /-- How many words of the random stream have been used. -/
  drawn : Nat := 0
  world : W

namespace Host

variable {W : Type}

def millis (host : Host W) : Float :=
  host.time.toMillis

/-- Lets the time of a frame pass. -/
def pass (host : Host W) (cost : Micros) : Host W :=
  { host with
    time := host.time + cost
    overflowed := host.overflowed || UInt64.size ≤ host.time.toNat + cost.toNat }

/-- Lets virtual time pass without a step, most often to make room for an animation. -/
def fastForward (host : Host W) (ms : UInt64) : Host W :=
  { host with
    time := host.time + ms * microsPerMilli
    overflowed := host.overflowed ||
      UInt64.size ≤ host.time.toNat + ms.toNat * microsPerMilli.toNat }

def log (host : Host W) (output : String) : Host W :=
  { host with console := host.console.push { time := host.time, output } }

/-- An integer from `low` to `high`, both included; `low` when there is nothing to choose, and then
no word of the stream is used. Over all signed words the random word itself is the number. -/
def random (host : Host W) (low high : Int) : Int × Host W :=
  if high ≤ low then (low, host)
  else if high - low + 1 = Number.twoTo 64 then
    ((Chance.word host.seed host.drawn).toInt64.toInt, { host with drawn := host.drawn + 1 })
  else
    let (n, drawn) :=
      Chance.below host.seed (high - low + 1).toNat Chance.patience host.drawn
    (low + n, { host with drawn })

end Host

/-- How a host function fails: with a message meant for the learner, or otherwise. -/
inductive HostFailure where
  | logic (message : String)
  | other (message : String)
deriving DecidableEq, Repr

def HostFailure.message : HostFailure → String
  | .logic message => message
  | .other message => message

structure HostFunction (W : Type) where
  name : String
  arity : Arity
  description : String := ""
  run : List Snapshot → Host W → Except HostFailure Json × Host W

def HostFunction.toJson {W : Type} (f : HostFunction W) : Json :=
  Json.strings [f.name, f.arity.text, f.description]

/-- Function name, then the arguments as compact JSON, then how often it was entered so. A count is
that of a 64-bit word as long as a function is entered less than 2 ^ 64 times with the same
arguments. -/
abbrev CallLog := Table (Table Nat)

def CallLog.count (log : CallLog) (name arguments : String) : CallLog :=
  let calls := (log.get? name).getD Table.empty
  log.insert name (calls.insert arguments ((calls.get? arguments).getD 0 + 1))

/-- How often a function was entered, whatever the arguments. -/
def CallLog.total (log : CallLog) (name : String) : Nat :=
  ((log.get? name).getD Table.empty).entries.foldl (fun n entry => n + entry.2) 0

end Walkthrough
