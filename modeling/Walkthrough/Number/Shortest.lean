import Walkthrough.Number.Binary

/-! The decimal with the fewest digits that reads back as a given double.

The numbers that round to `m * 2 ^ q` form an interval, its ends included exactly when `m` is
even. On the grid of decimals with `n` digits only the two neighbours of the value need testing,
so the first `n` with a hit gives the answer; of two hits the nearer one is taken. When both are
equally near, it is for the notation to say which. Seventeen digits always suffice. -/

namespace Walkthrough.Number

/-- The number `coefficient * 10 ^ exponent`. -/
structure Decimal where
  coefficient : Nat
  exponent : Int
deriving DecidableEq, Repr

/-- Which of two neighbours on a grid is taken for a value halfway between them. -/
inductive Tie where
  | upper
  | even
deriving DecidableEq, Repr

/-- The value lies so far above its lower neighbour, of a distance `unit` to the next, that the
upper one is taken. -/
def Tie.prefersUpper (tie : Tie) (lower rest unit : Nat) : Bool :=
  match tie with
  | .upper => unit ≤ 2 * rest
  | .even => unit < 2 * rest || (unit = 2 * rest && lower % 2 = 1)

/-- A value and its rounding interval over one denominator. -/
structure Interval where
  low : Nat
  value : Nat
  high : Nat
  den : Nat
  closed : Bool

/-- The interval of the reals that round to the positive double `b`. Below a power of two the
doubles lie twice as dense. -/
def Binary.interval (b : Binary) : Interval :=
  let e := b.exponent - 2
  let unit := twoTo e.toNat
  let below := if b.mantissa = twoTo 52 && b.exponent > leastExponent then 1 else 2
  { low := (4 * b.mantissa - below) * unit
    value := 4 * b.mantissa * unit
    high := (4 * b.mantissa + 2) * unit
    den := twoTo (-e).toNat
    closed := b.mantissa % 2 == 0 }

/-- The fraction `num / den` lies in the interval. -/
def Interval.covers (r : Interval) (num den : Nat) : Bool :=
  if r.closed then r.low * den ≤ num * r.den && num * r.den ≤ r.high * den
  else r.low * den < num * r.den && num * r.den < r.high * den

/-- The number of digits before the point: the least `k` with the value below `10 ^ k`. -/
def Interval.magnitude (r : Interval) : Int :=
  let guess : Int := (((r.value.log2 : Int) - r.den.log2 - 1) * 30103) / 100000 - 1
  let fits (k : Int) : Bool := r.value * tenTo (-k).toNat < r.den * tenTo k.toNat
  ([guess, guess + 1, guess + 2, guess + 3].find? fits).getD (guess + 4)

/-- The decimal of `count` digits that reads back, if there is one. -/
def Interval.withDigits? (r : Interval) (tie : Tie) (k : Int) (count : Nat) : Option Decimal :=
  let e := k - count
  let up := tenTo (-e).toNat
  let unit := tenTo e.toNat
  let lower := r.value * up / (r.den * unit)
  let hit (c : Nat) : Bool := r.covers (c * unit) up
  let isUpper := tie.prefersUpper lower (r.value * up % (r.den * unit)) (r.den * unit)
  match hit lower, hit (lower + 1) with
  | true, true => some { coefficient := if isUpper then lower + 1 else lower, exponent := e }
  | true, false => some { coefficient := lower, exponent := e }
  | false, true => some { coefficient := lower + 1, exponent := e }
  | false, false => none

/-- The same number without zeros at the end of the coefficient. -/
def Decimal.stripZeros : Nat → Decimal → Decimal
  | 0, d => d
  | n + 1, d =>
    if d.coefficient ≠ 0 && d.coefficient % 10 == 0 then
      stripZeros n { coefficient := d.coefficient / 10, exponent := d.exponent + 1 }
    else d

/-- The shortest decimal of the magnitude of a finite double that is not zero. -/
def shortest (tie : Tie) (x : Float) : Decimal :=
  let r := (Binary.ofFloat x).interval
  let k := r.magnitude
  match (List.range 17).findSome? fun n => r.withDigits? tie k (n + 1) with
  | some d => Decimal.stripZeros 17 d
  | none => { coefficient := 0, exponent := 0 }

end Walkthrough.Number
