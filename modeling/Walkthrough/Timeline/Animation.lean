import Walkthrough.Frame

/-! Animations, and the numbers that their times are counted in. -/

namespace Walkthrough

/-- A kind of number that a clock can count milliseconds in: with sums, products and an order, and
exchanged with whole microseconds. -/
class ClockTime (τ : Type) extends Zero τ, One τ, Add τ, Mul τ, LE τ, LT τ, Max τ, Min τ where
  decidableLE : DecidableLE τ
  decidableLT : DecidableLT τ
  /-- The milliseconds that so many microseconds are. -/
  ofMicros : Micros → τ
  /-- The microseconds nearest to so many milliseconds, as far as words reach. -/
  toMicros : τ → Micros
  /-- The nearest whole number of milliseconds. -/
  roundMillis : τ → τ

instance ClockTime.instDecidableLE {τ : Type} [c : ClockTime τ] : DecidableLE τ := c.decidableLE

instance ClockTime.instDecidableLT {τ : Type} [c : ClockTime τ] : DecidableLT τ := c.decidableLT

/-- The word nearest to a double, a half away from zero. -/
def Number.toWord (x : Float) : UInt64 :=
  UInt64.ofNat (min (truncate (roundAway x)).toNat (twoTo 64 - 1))

/-- Running clocks count in doubles. Of something that is no number and a number, the number is both
the larger and the smaller one. -/
instance : ClockTime Float where
  zero := 0.0
  one := 1.0
  add := (· + ·)
  mul := (· * ·)
  le := (· ≤ ·)
  lt := (· < ·)
  max x y := if x ≤ y || x.isNaN then y else x
  min x y := if x ≤ y || y.isNaN then x else y
  decidableLE := inferInstanceAs (DecidableLE Float)
  decidableLT := inferInstanceAs (DecidableLT Float)
  ofMicros := Micros.toMillis
  toMicros x := Number.toWord (x * microsPerMilli.toFloat)
  roundMillis := Number.roundAway

/-- A change that something on the screen goes through, from an offset on and for a while. -/
structure Animation (τ : Type) where
  targets : String
  offset : τ
  duration : τ
  transformations : Json

namespace Animation

def finish {τ : Type} [Add τ] (a : Animation τ) : τ :=
  a.offset + a.duration

/-- The same change with its times counted otherwise. -/
def mapTimes {σ τ : Type} (f : σ → τ) (a : Animation σ) : Animation τ :=
  { targets := a.targets
    offset := f a.offset
    duration := f a.duration
    transformations := a.transformations }

def toJson (a : Animation Float) : Json :=
  Json.object
    [("targets", .str a.targets), ("offset_ms", .float a.offset),
     ("duration_ms", .float a.duration), ("transformations", a.transformations)]

end Animation
end Walkthrough
