import Walkthrough.Toml.Node
import Walkthrough.Toml.Text

/-! The unquoted values of a TOML document: numbers, dates and times, and the two truth values. A
number starts like a date, so dates come first, and floats come before integers. -/

namespace Walkthrough.Toml

def expect (c : Char) : List Char → Option (List Char)
  | x :: rest => if x = c then some rest else none
  | [] => none

def expectAll (word : String) (cs : List Char) : Option (List Char) :=
  word.toList.foldlM (fun rest c => expect c rest) cs

/-- Digits after the first one; one underscore may stand between two digits. -/
def moreDigits (isMember : Char → Bool) : List Char → Option (List Char × List Char)
  | [] => some ([], [])
  | ['_'] => none
  | '_' :: c :: rest => if isMember c then readFirst c (moreDigits isMember rest) else none
  | c :: rest => if isMember c then readFirst c (moreDigits isMember rest) else some ([], c :: rest)

/-- One digit or more. -/
def digitRun (isMember : Char → Bool) : List Char → Option (List Char × List Char)
  | [] => none
  | c :: rest => if isMember c then readFirst c (moreDigits isMember rest) else none

/-- The digits of a whole number: zero, or digits that do not start with zero. -/
def wholeDigits : List Char → Option (List Char × List Char)
  | '0' :: rest => some (['0'], rest)
  | cs => digitRun Number.isDigit cs

def exponent : List Char → Option (Int × List Char)
  | c :: rest => do
    if c = 'e' || c = 'E' then
      let (negative, rest) := Number.takeSign rest
      let (ds, rest) ← digitRun Number.isDigit rest
      let n : Int := Number.digitsValue ds
      return (if negative then -n else n, rest)
    else none
  | [] => none

/-- The places after the point of a number; none without a point. -/
def fraction : List Char → Option (List Char × List Char)
  | '.' :: rest => digitRun Number.isDigit rest
  | cs => some ([], cs)

/-- A number with a point or an exponent, or a name of what is not finite. A number too large for a
double is refused, but not a number too small for one. -/
def float? (cs : List Char) : Option (Node × List Char) := do
  let (negative, start) := Number.takeSign cs
  let word (x : Float) := Node.float (if negative then -x else x)
  match expectAll "inf" start, expectAll "nan" start with
  | some rest, _ => some (word Number.infinity, rest)
  | _, some rest => some (word Number.notANumber, rest)
  | _, _ =>
    let (whole, rest) ← wholeDigits start
    let (places, afterPlaces) ← fraction rest
    let (power, rest) ←
      match exponent afterPlaces with
      | some read => some read
      | none => if places.isEmpty then none else some (0, afterPlaces)
    let digits := Number.digitsValue (whole ++ places)
    let x := Number.ofDecimal negative digits (power - places.length)
    if x == Number.infinity then none else some (.float x, rest)

/-- Whole numbers have 64 bits, one of them for the sign. -/
def inRange (n : Int) : Bool :=
  -(Number.twoTo 63 : Int) ≤ n && n < (Number.twoTo 63 : Int)

/-- The digits of a whole number in a base. -/
def natural? (base : Nat) (isMember : Char → Bool) (cs : List Char) : Option (Int × List Char) :=
  (digitRun isMember cs).map fun (ds, rest) => ((valueInBase base ds : Int), rest)

/-- A whole number by its decimal digits, with its sign. -/
def decimal? (cs : List Char) : Option (Int × List Char) :=
  let (negative, start) := Number.takeSign cs
  (wholeDigits start).map fun (ds, rest) =>
    let n : Int := Number.digitsValue ds
    (if negative then -n else n, rest)

/-- A whole number in one of four bases; only the decimal one has a sign. -/
def integer? (cs : List Char) : Option (Node × List Char) :=
  let read :=
    match cs with
    | '0' :: 'x' :: rest => natural? 16 Number.isHexDigit rest
    | '0' :: 'o' :: rest => natural? 8 (fun c => '0' ≤ c && c ≤ '7') rest
    | '0' :: 'b' :: rest => natural? 2 (fun c => c = '0' || c = '1') rest
    | cs => decimal? cs
  read.bind fun (n, rest) => if inRange n then some (.integer n, rest) else none

/-- A number of exactly so many digits within bounds. -/
def digitsWithin (count low high : Nat) (cs : List Char) : Option (Nat × List Char) :=
  let ds := cs.take count
  let n := Number.digitsValue ds
  if ds.length = count && ds.all Number.isDigit && low ≤ n && n ≤ high then some (n, cs.drop count)
  else none

def isLeapYear (year : Nat) : Bool :=
  year % 4 = 0 && (year % 100 ≠ 0 || year % 400 = 0)

def daysInMonth (year month : Nat) : Nat :=
  if month = 2 then if isLeapYear year then 29 else 28
  else if month = 4 || month = 6 || month = 9 || month = 11 then 30
  else 31

def date? (cs : List Char) : Option (List Char) := do
  let (year, rest) ← digitsWithin 4 0 9999 cs
  let (month, rest) ← digitsWithin 2 1 12 (← expect '-' rest)
  let (_, rest) ← digitsWithin 2 1 (daysInMonth year month) (← expect '-' rest)
  return rest

/-- Hour, minute and second, with a fraction if there is one. The last minute may have a leap
second. -/
def time? (cs : List Char) : Option (List Char) := do
  let (_, rest) ← digitsWithin 2 0 23 cs
  let (_, rest) ← digitsWithin 2 0 59 (← expect ':' rest)
  let (_, rest) ← digitsWithin 2 0 60 (← expect ':' rest)
  match rest with
  | '.' :: c :: more =>
    if Number.isDigit c then some (more.dropWhile Number.isDigit) else some rest
  | _ => some rest

/-- How far a time is from universal time; nothing is as good. -/
def offset (cs : List Char) : List Char :=
  match cs with
  | [] => []
  | c :: rest =>
    if c = 'Z' || c = 'z' then rest
    else if c = '+' || c = '-' then (distance? rest).getD cs
    else cs
where
  distance? (cs : List Char) : Option (List Char) := do
    let (_, rest) ← digitsWithin 2 0 23 cs
    let (_, rest) ← digitsWithin 2 0 59 (← expect ':' rest)
    return rest

def moment? (cs : List Char) : Option (Node × List Char) :=
  match date? cs with
  | some rest =>
    let both : Option (List Char) :=
      match rest with
      | c :: more => if c = 'T' || c = 't' || c = ' ' then (time? more).map offset else none
      | [] => none
    some (.moment, both.getD rest)
  | none => (time? cs).map fun rest => (.moment, rest)

def truth? (cs : List Char) : Option (Node × List Char) :=
  ((expectAll "true" cs).map fun rest => (Node.bool true, rest))
    <|> ((expectAll "false" cs).map fun rest => (Node.bool false, rest))

/-- A value that holds no other value. -/
def scalar? (cs : List Char) : Option (Node × List Char) :=
  ((text? cs).map fun (s, rest) => (Node.text s, rest))
    <|> truth? cs <|> moment? cs <|> float? cs <|> integer? cs

end Walkthrough.Toml
