import Walkthrough.Number.Shortest

/-! How numbers are written: by digits alone, with a fixed count of places, or as a JSON number. -/

namespace Walkthrough.Number

def digits (n : Nat) : String :=
  String.ofList (Nat.toDigits 10 n)

def signed (negative : Bool) (text : String) : String :=
  if negative then "-" ++ text else text

def integerText (n : Int) : String :=
  signed (decide (n < 0)) (digits n.natAbs)

def zeros (n : Nat) : String :=
  String.ofList (List.replicate n '0')

/-- A run of digits with a point after the first `p` of them; zeros fill the gap when `p` is not
positive. -/
def pointAfter (ds : List Char) (p : Int) : String :=
  if p ≤ 0 then "0." ++ zeros (-p).toNat ++ String.ofList ds
  else String.ofList (ds.take p.toNat) ++ "." ++ String.ofList (ds.drop p.toNat)

/-- Positional notation of any size; a whole number has no point. -/
def Decimal.positional (d : Decimal) : String :=
  let ds := Nat.toDigits 10 d.coefficient
  if d.exponent ≥ 0 then String.ofList ds ++ zeros d.exponent.toNat
  else pointAfter ds (ds.length + d.exponent)

/-- The decimal exponent of the first digit. -/
def Decimal.order (d : Decimal) : Int :=
  (Nat.toDigits 10 d.coefficient).length + d.exponent - 1

/-- One digit, then the others after a point, then a signed exponent. -/
def Decimal.scientific (d : Decimal) : String :=
  let ds := Nat.toDigits 10 d.coefficient
  let mantissa := if ds.length ≤ 1 then String.ofList ds else pointAfter ds 1
  let sign := if d.order < 0 then "-" else "+"
  mantissa ++ "e" ++ sign ++ digits d.order.natAbs

/-- The shortest digits of a finite number, without an exponent; of two equally near texts the one
of the greater magnitude. -/
def plainText (x : Float) : String :=
  if x == 0.0 then signed (Binary.ofFloat x).negative "0"
  else signed (Binary.ofFloat x).negative (shortest .upper x).positional

/-- The text of a number as learners read it: whole numbers below `10 ^ 15` by their digits, so
that zero has no sign, and all others by their shortest digits. -/
def text (x : Float) : String :=
  if x.isNaN then "NaN"
  else if x.isInf then if x > 0.0 then "Infinity" else "-Infinity"
  else if isWhole x && x.abs < 1e15 then integerText (truncate x)
  else plainText x

/-- The text that tells negative zero apart. -/
def signedText (x : Float) : String :=
  if x == 0.0 && (Binary.ofFloat x).negative then "-0" else text x

/-- The text of a setting: as digits, with short names for what is not finite. -/
def settingText (x : Float) : String :=
  if x.isNaN then "NaN"
  else if x.isInf then if x > 0.0 then "inf" else "-inf"
  else plainText x

/-- A JSON number that is not an integer: positional from `0.00001` up to `10 ^ 16`, with `.0`
after a whole number, and scientific outside. Of two equally near texts the one with the even last
digit is written. -/
def jsonText (x : Float) : String :=
  let negative := (Binary.ofFloat x).negative
  if x == 0.0 then signed negative "0.0"
  else
    let d := shortest .even x
    let body :=
      if d.order < -5 || 15 < d.order then d.scientific
      else if d.exponent ≥ 0 then d.positional ++ ".0"
      else d.positional
    signed negative body

/-- The exact value rounded to `places` decimals, a half to the even digit. -/
def fixedText (places : Nat) (x : Float) : String :=
  let b := Binary.ofFloat x
  let n := divideToEven (b.mantissa * twoTo b.exponent.toNat * tenTo places)
    (twoTo (-b.exponent).toNat)
  let ds := Nat.toDigits 10 n
  let padded := List.replicate (places + 1 - ds.length) '0' ++ ds
  let body :=
    if places = 0 then String.ofList padded
    else pointAfter padded ((padded.length : Int) - places)
  signed b.negative body

end Walkthrough.Number
