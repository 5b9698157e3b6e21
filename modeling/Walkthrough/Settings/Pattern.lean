import Walkthrough.Number.Reading
import Walkthrough.Text.Alphanumeric
import Walkthrough.Text.Blank

/-! Which texts are patterns. A pattern is a regular expression in the usual notation; it is refused
when its form is wrong, and also when it cannot be used: there are no tables of letters, digits,
blanks and cases for all of Unicode, and a pattern may not match parts of a character. Braces never
close inside a filter, so what needs a closing brace is always wrong. -/

namespace Walkthrough.Pattern

/-- What the letters in `(?i-u)` turn on and off. -/
structure Flags where
  ignoresCase : Bool := false
  isUnicode : Bool := true
  ignoresBlanks : Bool := false
deriving DecidableEq, Repr

/-- Where blanks do not count, drops them and comments. -/
def skipGap (isOn inComment : Bool) : List Char → List Char
  | [] => []
  | c :: rest =>
    if inComment then skipGap isOn (c != '\n') rest
    else if isOn && Text.isBlank c then skipGap isOn false rest
    else if isOn && c = '#' then skipGap isOn true rest
    else c :: rest

def Flags.skip (f : Flags) (cs : List Char) : List Char :=
  skipGap f.ignoresBlanks false cs

/-- What a single character or an escape stands for. -/
inductive Atom where
  /-- A character; `isByte` if it was written as two hexadecimal digits. -/
  | literal (c : Char) (isByte : Bool)
  /-- Digits, blanks or letters, or all but these. -/
  | kind (isNegated : Bool)
  /-- An edge of the text or of a line. -/
  | edge
  /-- An edge of a word. -/
  | wordEdge
deriving DecidableEq, Repr

/-- The atom can be used under the flags. -/
def Flags.allow (f : Flags) : Atom → Bool
  | .literal c isByte =>
    if f.isUnicode then !f.ignoresCase
    else c.toNat ≤ 0x7F || !(isByte || f.ignoresCase)
  | .kind isNegated => !f.isUnicode && !isNegated
  | .edge => true
  | .wordEdge => !f.isUnicode

/-- So many hexadecimal digits, after those that make `value`. -/
def readHex (f : Flags) : Nat → Nat → List Char → Option (Nat × List Char)
  | 0, value, cs => some (value, cs)
  | n + 1, value, cs =>
    match f.skip cs with
    | c :: rest =>
      if Number.isHexDigit c then readHex f n (16 * value + Number.hexValue c) rest else none
    | [] => none

def readCode (f : Flags) (digits : Nat) (cs : List Char) : Option (Atom × List Char) := do
  let (code, rest) ← readHex f digits 0 cs
  if code.isValidChar then some (.literal (Char.ofNat code) (digits = 2), rest) else none

/-- ASCII characters other than letters and digits stand for themselves after a backslash. -/
def isEscapable (c : Char) : Bool :=
  c.toNat < 0x80 && !c.isAlphanum && c ≠ '<' && c ≠ '>'

/-- Letters that stand for a control character after a backslash. -/
def controlEscapes : List (Char × Char) :=
  [('a', '\x07'), ('f', '\x0c'), ('t', '\t'), ('n', '\n'), ('r', '\r'), ('v', '\x0b')]

def readEscape (f : Flags) : List Char → Option (Atom × List Char)
  | [] => none
  | c :: rest =>
    if isEscapable c then some (.literal c false, rest)
    else match c with
      | 'x' => readCode f 2 rest
      | 'u' => readCode f 4 rest
      | 'U' => readCode f 8 rest
      | 'd' | 's' | 'w' => some (.kind false, rest)
      | 'D' | 'S' | 'W' => some (.kind true, rest)
      | 'A' | 'z' => some (.edge, rest)
      | 'b' | 'B' | '<' | '>' => some (.wordEdge, rest)
      | c => (controlEscapes.lookup c).map fun meant => (.literal meant false, rest)

/-! Sets of characters in square brackets. -/

def asciiClasses : List String :=
  ["alnum", "alpha", "ascii", "blank", "cntrl", "digit", "graph", "lower", "print", "punct",
   "space", "upper", "word", "xdigit"]

/-- A class by its name, after `[`: whether it is negated, and the rest. -/
def asciiClass? : List Char → Option (Bool × List Char)
  | ':' :: cs =>
    let isNegated : Bool := cs.head? = some '^'
    let cs := if isNegated then cs.drop 1 else cs
    let name := cs.takeWhile (· != ':')
    match cs.dropWhile (· != ':') with
    | ':' :: ']' :: rest =>
      if asciiClasses.contains (String.ofList name) then some (isNegated, rest) else none
    | _ => none
  | _ => none

/-- Dashes at the start of a set stand for themselves. -/
def dropDashes (f : Flags) : Nat → List Char → List Char
  | 0, cs => cs
  | n + 1, cs =>
    match cs with
    | '-' :: rest => dropDashes f n (f.skip rest)
    | cs => cs

/-- The start of a set, after `[`. A closing bracket that comes first stands for itself. -/
def startSet (f : Flags) (cs : List Char) : Option (List Char) :=
  let cs := f.skip cs
  let isNegated : Bool := cs.head? = some '^'
  let cs := if isNegated then f.skip (cs.drop 1) else cs
  let afterDashes := dropDashes f cs.length cs
  let rest := if afterDashes.length = cs.length && cs.head? = some ']' then f.skip (cs.drop 1)
    else afterDashes
  if rest.isEmpty || (isNegated && !f.isUnicode) then none else some rest

/-- A member of a set: a character or a kind of characters. -/
def readMember (f : Flags) : List Char → Option (Atom × List Char)
  | '\\' :: rest => do
    let (atom, rest) ← readEscape f rest
    match atom with
    | .edge | .wordEdge => none
    | .literal c _ => if f.isUnicode || c.toNat ≤ 0x7F then some (atom, rest) else none
    | .kind _ => if f.allow atom then some (atom, rest) else none
  | c :: rest => if f.isUnicode || c.toNat ≤ 0x7F then some (.literal c false, rest) else none
  | [] => none

/-- A member, or a range of characters that goes upwards. A dash before a closing bracket or before
another dash makes no range. -/
def readRange (f : Flags) (cs : List Char) : Option (List Char) := do
  let (first, rest) ← readMember f cs
  match f.skip rest with
  | [] => none
  | '-' :: rest =>
    match f.skip rest with
    | [] => none
    | c :: more =>
      if c = ']' || c = '-' then some ('-' :: rest)
      else
        let (last, rest) ← readMember f (c :: more)
        match first, last with
        | .literal low _, .literal high _ => if low ≤ high then some rest else none
        | _, _ => none
  | rest => some rest

/-- The rest of a set, which lies within `depth` others. Every step takes a character. -/
def readSet (f : Flags) : Nat → Nat → List Char → Option (List Char)
  | 0, _, _ => none
  | fuel + 1, depth, cs =>
    match f.skip cs with
    | [] => none
    | '[' :: rest =>
      match asciiClass? rest with
      | some (isNegated, rest) =>
        if isNegated && !f.isUnicode then none else readSet f fuel depth rest
      | none => do readSet f fuel (depth + 1) (← startSet f rest)
    | ']' :: rest =>
      match depth with
      | 0 => some rest
      | depth + 1 => readSet f fuel depth rest
    | '&' :: '&' :: rest | '-' :: '-' :: rest | '~' :: '~' :: rest => readSet f fuel depth rest
    | cs => do readSet f fuel depth (← readRange f cs)

/-! Groups. -/

/-- What stands after a bracket that opens. -/
inductive Opening where
  | group
  | named (name : List Char)
  | scoped (flags : Flags)
  | setting (flags : Flags)

/-- The flags after `letters`, each given once; after a dash they are turned off, and something
comes after it. -/
def applyFlags (f : Flags) (isOn : Bool) (seen : List Char) : List Char → Option Flags
  | [] => if seen.head? = some '-' then none else some f
  | c :: rest =>
    if seen.contains c then none
    else match c with
      | '-' => applyFlags f false (c :: seen) rest
      | 'i' => applyFlags { f with ignoresCase := isOn } isOn (c :: seen) rest
      | 'u' => applyFlags { f with isUnicode := isOn } isOn (c :: seen) rest
      | 'x' => applyFlags { f with ignoresBlanks := isOn } isOn (c :: seen) rest
      | 'm' | 's' | 'U' | 'R' => applyFlags f isOn (c :: seen) rest
      | _ => none

def isNameStart (c : Char) : Bool :=
  c = '_' || (Text.isAlphanumeric c && !Number.isDigit c)

def isNameChar (c : Char) : Bool :=
  c = '_' || c = '.' || c = '[' || c = ']' || Text.isAlphanumeric c

def readName (cs : List Char) : Option (Opening × List Char) :=
  let name := cs.takeWhile (· != '>')
  match cs.dropWhile (· != '>') with
  | _ :: rest =>
    if name.head?.any isNameStart && name.all isNameChar then some (.named name, rest) else none
  | [] => none

def readOpening (f : Flags) (cs : List Char) : Option (Opening × List Char) :=
  match f.skip cs with
  | '?' :: 'P' :: '<' :: rest => readName rest
  | '?' :: '<' :: rest => readName rest
  | '?' :: rest => do
    let letters := rest.takeWhile fun c => c != ':' && c != ')'
    let flags ← applyFlags f true [] letters
    match rest.dropWhile fun c => c != ':' && c != ')' with
    | ':' :: rest => some (.scoped flags, rest)
    | ')' :: rest => if letters.isEmpty then none else some (.setting flags, rest)
    | _ => none
  | rest => some (.group, rest)

/-- Where the reading of a pattern stands: the flags, those of the groups around, the names of
groups, and whether there is something to repeat. -/
structure Reading where
  flags : Flags := {}
  outer : List Flags := []
  names : List (List Char) := []
  isRepeatable : Bool := false

namespace Reading

def opened (r : Reading) : Opening → Option Reading
  | .group => some { r with outer := r.flags :: r.outer, isRepeatable := false }
  | .scoped flags =>
    some { r with flags, outer := r.flags :: r.outer, isRepeatable := false }
  | .setting flags => some { r with flags, isRepeatable := false }
  | .named name =>
    if r.names.contains name then none
    else some { r with
      outer := r.flags :: r.outer, names := name :: r.names, isRepeatable := false }

/-- The rest of a pattern is right. Every step takes a character. -/
def accepts : Nat → Reading → List Char → Bool
  | 0, _, _ => false
  | fuel + 1, r, cs =>
    let repeatable := { r with isRepeatable := true }
    match r.flags.skip cs with
    | [] => r.outer.isEmpty
    | '(' :: rest =>
      match readOpening r.flags rest with
      | some (opening, rest) => (r.opened opening).any fun r => accepts fuel r rest
      | none => false
    | ')' :: rest =>
      match r.outer with
      | flags :: outer => accepts fuel { repeatable with flags, outer } rest
      | [] => false
    | '|' :: rest => accepts fuel { r with isRepeatable := false } rest
    | '[' :: rest =>
      (r.flags.isUnicode && r.flags.ignoresCase) = false &&
        ((startSet r.flags rest).bind (readSet r.flags rest.length 0)).any fun rest =>
          accepts fuel repeatable rest
    | '\\' :: rest =>
      match readEscape r.flags rest with
      | some (atom, rest) => r.flags.allow atom && accepts fuel repeatable rest
      | none => false
    | c :: rest =>
      if c = '*' || c = '+' || c = '?' then r.isRepeatable && accepts fuel r rest
      else if c = '\x7b' then false
      else if c = '.' then r.flags.isUnicode && accepts fuel repeatable rest
      else if c = '^' || c = '$' then accepts fuel repeatable rest
      else r.flags.allow (.literal c false) && accepts fuel repeatable rest

end Reading

def isValid (cs : List Char) : Bool :=
  Reading.accepts (cs.length + 1) {} cs

end Walkthrough.Pattern
