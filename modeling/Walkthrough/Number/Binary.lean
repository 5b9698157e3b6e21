/-! Doubles as exact binary fractions. A finite double is a sign, a natural number and a power of
two; every rounding in this library is stated on that form, in exact arithmetic. -/

namespace Walkthrough.Number

def twoTo (k : Nat) : Nat := Nat.pow 2 k

def tenTo (k : Nat) : Nat := Nat.pow 10 k

/-- The number `± mantissa * 2 ^ exponent`. -/
structure Binary where
  negative : Bool
  mantissa : Nat
  exponent : Int
deriving DecidableEq, Repr

/-- Exponent of the smallest positive double. -/
def leastExponent : Int := -1074

/-- The parts of a finite double. On an infinity or NaN the result means nothing. -/
def Binary.ofFloat (x : Float) : Binary :=
  let bits := x.toBits.toNat
  let biased : Nat := bits / twoTo 52 % twoTo 11
  let fraction : Nat := bits % twoTo 52
  { negative := bits / twoTo 63 == 1
    mantissa := if biased = 0 then fraction else twoTo 52 + fraction
    exponent := if biased = 0 then leastExponent else (biased : Int) - 1075 }

/-- The quotient of `num / den` rounded to the nearest natural number, a half to the even one. -/
def divideToEven (num den : Nat) : Nat :=
  let q := num / den
  let twice := 2 * (num % den)
  if twice > den || (twice == den && q % 2 == 1) then q + 1 else q

/-- `num / den` in units of `2 ^ e`, rounded to the nearest natural number. -/
def scaledMantissa (num den : Nat) (e : Int) : Nat :=
  divideToEven (num * twoTo (-e).toNat) (den * twoTo e.toNat)

/-- The binary exponent of the grid on which the doubles near `num / den` lie. -/
def gridExponent (num den : Nat) : Int :=
  let size : Int := (num.log2 : Int) - den.log2
  let low := max (size - 53) leastExponent
  if num * twoTo (-low).toNat / (den * twoTo low.toNat) < twoTo 53 then low else low + 1

/-- The double nearest to `± num / den`, of two equally near ones the one with the even mantissa.
Past the largest double it is an infinity. -/
def ofRatio (negative : Bool) (num den : Nat) : Float :=
  let e := gridExponent num den
  let magnitude :=
    if num = 0 then 0
    else min ((e - leastExponent).toNat * twoTo 52 + scaledMantissa num den e) (0x7FF * twoTo 52)
  Float.ofBits (UInt64.ofNat (magnitude + if negative then twoTo 63 else 0))

/-- The double `± mantissa * 2 ^ exponent`, rounded if need be. -/
def Binary.toFloat (b : Binary) : Float :=
  ofRatio b.negative (b.mantissa * twoTo b.exponent.toNat) (twoTo (-b.exponent).toNat)

def ofNat (n : Nat) : Float :=
  ofRatio false n 1

def ofInt (n : Int) : Float :=
  ofRatio (decide (n < 0)) n.natAbs 1

def infinity : Float := 1.0 / 0.0

def notANumber : Float := 0.0 / 0.0

/-- A finite number with nothing after the point. -/
def isWhole (x : Float) : Bool :=
  let b := Binary.ofFloat x
  x.isFinite && b.mantissa % twoTo (-b.exponent).toNat == 0

/-- What stands before the point, toward zero. NaN gives 0 and an infinity the end of the range
that `clampWord` names. -/
def truncate (x : Float) : Int :=
  let b := Binary.ofFloat x
  let size := b.mantissa * twoTo b.exponent.toNat / twoTo (-b.exponent).toNat
  if x.isNaN then 0 else if b.negative then -(size : Int) else size

/-- The nearest signed 64-bit integer. -/
def clampWord (n : Int) : Int :=
  max (-(twoTo 63 : Int)) (min n ((twoTo 63 : Int) - 1))

/-- The nearest whole number, a half away from zero. Infinities and NaN are left alone. -/
def roundAway (x : Float) : Float :=
  let b := Binary.ofFloat x
  if !x.isFinite || b.exponent ≥ 0 then x
  else
    let unit := twoTo (-b.exponent).toNat
    ofRatio b.negative ((2 * b.mantissa + unit) / (2 * unit)) 1

/-- What is left of `x` after taking away whole multiples of `y`; it has the sign of `x` and is
smaller than `y`, and it is exact. -/
def remainder (x y : Float) : Float :=
  let a := Binary.ofFloat x
  let b := Binary.ofFloat y
  if !x.isFinite || y.isNaN || y == 0.0 then notANumber
  else if !y.isFinite then x
  else
    let e := min a.exponent b.exponent
    Binary.toFloat
      { negative := a.negative
        mantissa :=
          a.mantissa * twoTo (a.exponent - e).toNat % (b.mantissa * twoTo (b.exponent - e).toNat)
        exponent := e }

end Walkthrough.Number
