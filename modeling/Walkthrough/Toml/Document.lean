import Walkthrough.Toml.Scalar

/-! Reading a TOML document. A document that breaks a rule is no document; where and why is not
told. -/

namespace Walkthrough.Toml

/-- How deep values may lie inside each other, and how many parts a key may have. -/
def maxDepth : Nat := 79

def skipGaps (cs : List Char) : List Char :=
  cs.dropWhile isGap

/-- Skips blanks, line ends and comments. -/
def skipSpace (inComment : Bool) : List Char → List Char
  | [] => []
  | '\r' :: '\n' :: rest => skipSpace false rest
  | c :: rest =>
    if c = '\n' then skipSpace false rest
    else if inComment then if isPrintable c then skipSpace true rest else c :: rest
    else if isGap c then skipSpace false rest
    else if c = '#' then skipSpace true rest
    else c :: rest

/-- The end of a line: blanks, a comment, and a line end or the end of the document. -/
def lineEnd (cs : List Char) : Option (List Char) :=
  let tail :=
    match skipGaps cs with
    | '#' :: rest => rest.dropWhile isPrintable
    | rest => rest
  match tail with
  | [] => some []
  | '\n' :: rest => some rest
  | '\r' :: '\n' :: rest => some rest
  | _ => none

/-- What a key without quotes is made of. -/
def isBare (c : Char) : Bool :=
  Number.isDigit c || ('a' ≤ c && c ≤ 'z') || ('A' ≤ c && c ≤ 'Z') || c = '-' || c = '_'

/-- A key without dots. -/
def simpleKey : List Char → Option (String × List Char)
  | '"' :: rest => (basicBody rest).map fun (cs, rest) => (String.ofList cs, rest)
  | '\'' :: rest => (literalBody rest).map fun (cs, rest) => (String.ofList cs, rest)
  | cs =>
    let name := cs.takeWhile isBare
    if name.isEmpty then none else some (String.ofList name, cs.dropWhile isBare)

/-- A key of at most so many parts, with the blanks around it: the parts before the last one, and
the last one. -/
def dottedKey : Nat → List Char → Option ((List String × String) × List Char)
  | 0, _ => none
  | parts + 1, cs => do
    let (key, rest) ← simpleKey (skipGaps cs)
    match skipGaps rest with
    | '.' :: rest =>
      let ((path, last), rest) ← dottedKey parts rest
      return ((key :: path, last), rest)
    | rest => return (([], key), rest)

/-- The items of a list after its opening bracket; a comma may follow the last one. -/
def listItems (value : List Char → Option (Node × List Char)) :
    Nat → List Char → Option (List Node × List Char)
  | 0, _ => none
  | fuel + 1, cs =>
    match skipSpace false cs with
    | ']' :: rest => some ([], rest)
    | start => do
      let (item, rest) ← value start
      match skipSpace false rest with
      | ',' :: rest =>
        let (items, rest) ← listItems value fuel rest
        return (item :: items, rest)
      | ']' :: rest => return ([item], rest)
      | _ => none

/-- A key and its value, added to a table. -/
def entry (value : List Char → Option (Node × List Char)) (origin : Origin) (entries : Entries)
    (cs : List Char) : Option (Entries × List Char) := do
  let ((path, key), rest) ← dottedKey maxDepth cs
  let (node, rest) ← value (skipGaps (← expect '=' rest))
  let entries ← entries.assign path key node origin
  return (entries, rest)

/-- The entries of an inline table, at least one; no comma follows the last one. -/
def inlineEntries (value : List Char → Option (Node × List Char)) :
    Nat → Entries → List Char → Option (Entries × List Char)
  | 0, _, _ => none
  | fuel + 1, entries, cs => do
    let (entries, rest) ← entry value .inline entries cs
    match skipGaps rest with
    | ',' :: rest => inlineEntries value fuel entries rest
    | '\x7d' :: rest => return (entries, rest)
    | _ => none

/-- A value with at most so many levels inside it. -/
def value : Nat → List Char → Option (Node × List Char)
  | 0, cs => scalar? cs
  | depth + 1, cs =>
    match cs with
    | '[' :: rest =>
      (listItems (value depth) cs.length rest).map fun (items, rest) => (.list items, rest)
    | '\x7b' :: rest =>
      match skipGaps rest with
      | '\x7d' :: rest => some (.table .inline [], rest)
      | start =>
        (inlineEntries (value depth) cs.length [] start).map fun (entries, rest) =>
          (.table .inline entries, rest)
    | cs => scalar? cs

/-- A document being read: its entries so far, and the table that lines go to. -/
structure Page where
  entries : Entries := []
  header : List String := []

namespace Page

/-- A header line after its first bracket. -/
def readHeader (page : Page) (cs : List Char) : Option (Page × List Char) := do
  let (listed, start) := match cs with
    | '[' :: rest => (true, rest)
    | rest => (false, rest)
  let ((path, key), rest) ← dottedKey maxDepth start
  let rest ← expect ']' rest
  let rest ← if listed then expect ']' rest else some rest
  let entries ← if listed then page.entries.openListed path key else page.entries.openTable path key
  return ({ entries, header := path ++ [key] }, rest)

/-- A line with a key and a value. -/
def readEntry (page : Page) (cs : List Char) : Option (Page × List Char) := do
  let ((path, key), rest) ← dottedKey maxDepth cs
  let (node, rest) ← value maxDepth (skipGaps (← expect '=' rest))
  let entries ←
    Entries.descend false (Entries.assign path key node) page.header .header page.entries
  return ({ page with entries }, rest)

/-- Reads lines up to the end. Every line takes a character, so the length of the document bounds
their number. -/
def readLines : Nat → Page → List Char → Option Page
  | 0, page, cs => if cs.isEmpty then some page else none
  | fuel + 1, page, cs =>
    match skipGaps cs with
    | [] => some page
    | start@(c :: rest) => do
      let (page, rest) ←
        if c = '#' || c = '\n' || c = '\r' then some (page, start)
        else if c = '[' then page.readHeader rest
        else page.readEntry start
      readLines fuel page (← lineEnd rest)

end Page

/-- The entries of a document; a mark of the byte order in front is skipped. -/
def read? (s : String) : Option Entries :=
  let cs := match s.toList with
    | '\ufeff' :: rest => rest
    | cs => cs
  (Page.readLines cs.length {} cs).map (·.entries)

end Walkthrough.Toml
