import Walkthrough.Number.Reading

/-! Texts in a TOML document: between double quotes with escapes, between single quotes without, and
either of them over several lines between three quotes. A reader gives what it read and the rest. -/

namespace Walkthrough.Toml

/-- Puts a character in front of what is read. -/
def readFirst (c : Char) (r : Option (List Char × List Char)) : Option (List Char × List Char) :=
  r.map fun (cs, rest) => (c :: cs, rest)

def isGap (c : Char) : Bool := c = ' ' || c = '\t'

/-- What may stand in a text or a comment: all but control characters, the tab excepted. -/
def isPrintable (c : Char) : Bool :=
  c = '\t' || (0x20 ≤ c.toNat && c.toNat ≠ 0x7F)

def valueInBase (base : Nat) (ds : List Char) : Nat :=
  ds.foldl (fun n c => base * n + Number.hexValue c) 0

/-- The character with this hexadecimal code point. -/
def codePoint? (ds : List Char) : Option Char :=
  let n := valueInBase 16 ds
  if ds.all Number.isHexDigit && n.isValidChar then some (Char.ofNat n) else none

/-- What a backslash and this character stand for. -/
def unescape? : Char → Option Char
  | 'b' => some '\x08'
  | 't' => some '\t'
  | 'n' => some '\n'
  | 'f' => some '\x0c'
  | 'r' => some '\r'
  | '"' => some '"'
  | '\\' => some '\\'
  | _ => none

/-- A text after its opening double quote. -/
def basicBody : List Char → Option (List Char × List Char)
  | [] => none
  | '"' :: rest => some ([], rest)
  | '\\' :: 'u' :: a :: b :: c :: d :: rest =>
    (codePoint? [a, b, c, d]).bind fun x => readFirst x (basicBody rest)
  | '\\' :: 'U' :: a :: b :: c :: d :: e :: f :: g :: h :: rest =>
    (codePoint? [a, b, c, d, e, f, g, h]).bind fun x => readFirst x (basicBody rest)
  | '\\' :: c :: rest => (unescape? c).bind fun x => readFirst x (basicBody rest)
  | c :: rest => if c ≠ '\\' && isPrintable c then readFirst c (basicBody rest) else none

/-- A text after its opening single quote. -/
def literalBody : List Char → Option (List Char × List Char)
  | [] => none
  | '\'' :: rest => some ([], rest)
  | c :: rest => if isPrintable c then readFirst c (literalBody rest) else none

/-- Only blanks are left on the line. -/
def restIsBlank : List Char → Bool
  | [] => false
  | '\n' :: _ => true
  | '\r' :: '\n' :: _ => true
  | c :: rest => isGap c && restIsBlank rest

/-- The end of a text of several lines: up to two more quotes belong to it. -/
def afterThree (quote : Char) : List Char → List Char × List Char
  | a :: b :: rest =>
    if a ≠ quote then ([], a :: b :: rest)
    else if b = quote then ([a, b], rest)
    else ([a], b :: rest)
  | [a] => if a = quote then ([a], []) else ([], [a])
  | [] => ([], [])

/-- A text of several lines after its three opening double quotes. A backslash at the end of a line
takes away the line end and all blanks that follow; `skipping` holds while it does. -/
def multilineBody (skipping : Bool) : List Char → Option (List Char × List Char)
  | [] => none
  | '"' :: '"' :: '"' :: rest => some (afterThree '"' rest)
  | '\r' :: '\n' :: rest =>
    if skipping then multilineBody true rest else readFirst '\n' (multilineBody false rest)
  | '\\' :: 'u' :: a :: b :: c :: d :: rest =>
    (codePoint? [a, b, c, d]).bind fun x => readFirst x (multilineBody false rest)
  | '\\' :: 'U' :: a :: b :: c :: d :: e :: f :: g :: h :: rest =>
    (codePoint? [a, b, c, d, e, f, g, h]).bind fun x => readFirst x (multilineBody false rest)
  | '\\' :: c :: rest =>
    if restIsBlank (c :: rest) then multilineBody true (c :: rest)
    else (unescape? c).bind fun x => readFirst x (multilineBody false rest)
  | c :: rest =>
    if skipping && (isGap c || c = '\n') then multilineBody true rest
    else if c = '\n' || (c ≠ '\\' && isPrintable c) then readFirst c (multilineBody false rest)
    else none

/-- A text of several lines after its three opening single quotes. -/
def multilineLiteralBody : List Char → Option (List Char × List Char)
  | [] => none
  | '\'' :: '\'' :: '\'' :: rest => some (afterThree '\'' rest)
  | '\r' :: '\n' :: rest => readFirst '\n' (multilineLiteralBody rest)
  | c :: rest =>
    if c = '\n' || isPrintable c then readFirst c (multilineLiteralBody rest) else none

/-- A line end right after three opening quotes is no part of the text. -/
def dropFirstBreak : List Char → List Char
  | '\n' :: rest => rest
  | '\r' :: '\n' :: rest => rest
  | cs => cs

def text? : List Char → Option (String × List Char)
  | '"' :: '"' :: '"' :: rest => finish (multilineBody false (dropFirstBreak rest))
  | '"' :: rest => finish (basicBody rest)
  | '\'' :: '\'' :: '\'' :: rest => finish (multilineLiteralBody (dropFirstBreak rest))
  | '\'' :: rest => finish (literalBody rest)
  | _ => none
where
  finish (r : Option (List Char × List Char)) : Option (String × List Char) :=
    r.map fun (cs, rest) => (String.ofList cs, rest)

end Walkthrough.Toml
