import Walkthrough.Number.Layout
import Walkthrough.Table

/-! JSON values: what a host hands to a program and gets back from it, and the form of reports.
An integer and a double that happens to be whole are different numbers here, since they are
written differently. -/

namespace Walkthrough

/-- Objects hold their entries as written; `Json.object` puts them in key order. -/
inductive Json where
  | null
  | bool (b : Bool)
  | int (n : Int)
  | float (x : Float)
  | str (s : String)
  | arr (items : List Json)
  | obj (entries : List (String × Json))

namespace Json

instance : Inhabited Json := ⟨.null⟩

/-- An object with its keys in increasing order; of two entries with one key the later stays. -/
def object (entries : List (String × Json)) : Json :=
  .obj (Table.ofList entries).entries

def ofTable (t : Table Json) : Json :=
  .obj t.entries

def nat (n : Nat) : Json := .int n

def strings (texts : List String) : Json :=
  .arr (texts.map .str)

def optional {α : Type} (f : α → Json) : Option α → Json
  | some a => f a
  | none => .null

/-- A double, or null for what JSON has no number for. -/
def ofFloat (x : Float) : Json :=
  if x.isFinite then .float x else .null

/-- The double nearest to a number. -/
def number? : Json → Option Float
  | .int n => some (Number.ofInt n)
  | .float x => some x
  | _ => none

def hexDigit (n : Nat) : Char :=
  (Nat.toDigits 16 (n % 16)).headD '0'

/-- A character inside quotes: quote, backslash and control characters are escaped. -/
def escapeChar (c : Char) : List Char :=
  match c with
  | '"' => ['\\', '"']
  | '\\' => ['\\', '\\']
  | '\n' => ['\\', 'n']
  | '\r' => ['\\', 'r']
  | '\t' => ['\\', 't']
  | '\x08' => ['\\', 'b']
  | '\x0c' => ['\\', 'f']
  | c =>
    if c.toNat < 0x20 then ['\\', 'u', '0', '0', hexDigit (c.toNat / 16), hexDigit c.toNat] else [c]

def quote (s : String) : String :=
  "\"" ++ String.ofList (s.toList.flatMap escapeChar) ++ "\""

mutual

/-- Writes the text without blanks behind what is there already. -/
def compactAfter (before : String) : Json → String
  | .null => before ++ "null"
  | .bool b => before ++ if b then "true" else "false"
  | .int n => before ++ Number.integerText n
  | .float x => before ++ Number.jsonText x
  | .str s => before ++ quote s
  | .arr items => compactItems (before ++ "[") items ++ "]"
  | .obj entries => compactEntries (before ++ "\x7b") entries ++ "\x7d"

def compactItems (before : String) : List Json → String
  | [] => before
  | [item] => compactAfter before item
  | item :: rest => compactItems (compactAfter before item ++ ",") rest

def compactEntries (before : String) : List (String × Json) → String
  | [] => before
  | [(key, value)] => compactAfter (before ++ quote key ++ ":") value
  | (key, value) :: rest =>
    compactEntries (compactAfter (before ++ quote key ++ ":") value ++ ",") rest

end

/-- The text without blanks. -/
def compact (json : Json) : String :=
  compactAfter "" json

def indent (depth : Nat) : String :=
  String.ofList ('\n' :: List.replicate (2 * depth) ' ')

mutual

/-- Writes the text with one item a line, indented by two blanks a level, behind what is there
already. -/
def prettyAfter (depth : Nat) (before : String) : Json → String
  | .arr [] => before ++ "[]"
  | .arr (item :: rest) =>
    let first := prettyAfter (depth + 1) (before ++ "[" ++ indent (depth + 1)) item
    prettyItems (depth + 1) first rest ++ indent depth ++ "]"
  | .obj [] => before ++ "\x7b\x7d"
  | .obj ((key, value) :: rest) =>
    let opened := before ++ "\x7b" ++ indent (depth + 1) ++ quote key ++ ": "
    let first := prettyAfter (depth + 1) opened value
    prettyEntries (depth + 1) first rest ++ indent depth ++ "\x7d"
  | scalar => compactAfter before scalar

def prettyItems (depth : Nat) (before : String) : List Json → String
  | [] => before
  | item :: rest =>
    prettyItems depth (prettyAfter depth (before ++ "," ++ indent depth) item) rest

def prettyEntries (depth : Nat) (before : String) : List (String × Json) → String
  | [] => before
  | (key, value) :: rest =>
    let opened := before ++ "," ++ indent depth ++ quote key ++ ": "
    prettyEntries depth (prettyAfter depth opened value) rest

end

/-- The text with one item a line. -/
def pretty (json : Json) : String :=
  prettyAfter 0 "" json

end Json
end Walkthrough
