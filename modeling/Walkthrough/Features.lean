import Walkthrough.Json

/-! The switches and limits under which a program runs. -/

namespace Walkthrough

structure Features where
  shadowing : Bool := false
  coercion : Bool := false
  truthiness : Bool := false
  strictEquality : Bool := true
  /-- What each frame costs in virtual microseconds. -/
  timePerFrame : UInt64 := 1
  /-- How many loop bodies a run may enter, over all its loops. -/
  maxIterations : UInt64 := 10000
  /-- How far virtual time may go, in microseconds. -/
  maxTime : UInt64 := 10000000
deriving DecidableEq, Repr, Inhabited

def Features.toJson (f : Features) : Json :=
  Json.object
    [("allow_shadowing", .bool f.shadowing), ("allow_type_coercion", .bool f.coercion),
     ("allow_truthiness", .bool f.truthiness), ("enforce_strict_equality", .bool f.strictEquality),
     ("time_per_frame", .nat f.timePerFrame.toNat),
     ("max_total_loop_iterations", .nat f.maxIterations.toNat),
     ("max_total_execution_time", .nat f.maxTime.toNat)]

end Walkthrough
