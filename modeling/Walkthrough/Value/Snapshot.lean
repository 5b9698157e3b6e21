import Walkthrough.Json

/-! Frozen values: trees that own everything they show. A recorded step holds only these, so
nothing a program does later can change what the step shows. -/

namespace Walkthrough

/-- A value without cells. Dictionaries keep their entries in the order in which they were made. -/
inductive Snapshot where
  | number (x : Float)
  | text (s : String)
  | boolean (b : Bool)
  | list (items : List Snapshot)
  | dict (entries : List (String × Snapshot))
  | nothing

namespace Snapshot

instance : Inhabited Snapshot := ⟨.nothing⟩

def typeName : Snapshot → String
  | .number _ => "number"
  | .text _ => "string"
  | .boolean _ => "boolean"
  | .list _ => "list"
  | .dict _ => "dictionary"
  | .nothing => "null"

def number? : Snapshot → Option Float
  | .number x => some x
  | _ => none

def text? : Snapshot → Option String
  | .text s => some s
  | _ => none

/-- The first entry of a dictionary with the given key. -/
def get? (key : String) : Snapshot → Option Snapshot
  | .dict entries => entries.lookup key
  | _ => none

mutual

/-- The text of a value: texts in quotes, with nothing escaped. -/
def display : Snapshot → String
  | .number x => Number.text x
  | .text s => "\"" ++ s ++ "\""
  | .boolean b => if b then "true" else "false"
  | .list items => "[" ++ displayItems items ++ "]"
  | .dict entries => "\x7b" ++ displayEntries entries ++ "\x7d"
  | .nothing => "null"

def displayItems : List Snapshot → String
  | [] => ""
  | [item] => display item
  | item :: rest => display item ++ ", " ++ displayItems rest

def displayEntries : List (String × Snapshot) → String
  | [] => ""
  | [(key, value)] => "\"" ++ key ++ "\": " ++ display value
  | (key, value) :: rest => "\"" ++ key ++ "\": " ++ display value ++ ", " ++ displayEntries rest

end

/-- The text that a program writes: as `display`, but a text by itself has no quotes. -/
def output : Snapshot → String
  | .text s => s
  | value => display value

/-- A whole number below `9 * 10 ^ 15` is written as an integer. -/
def numberJson (x : Float) : Json :=
  if Number.isWhole x && x.abs < 9.0e15 then .int (Number.truncate x) else Json.ofFloat x

mutual

def toJson : Snapshot → Json
  | .number x => numberJson x
  | .text s => .str s
  | .boolean b => .bool b
  | .list items => .arr (toJsonItems items)
  | .dict entries => Json.object (toJsonEntries entries)
  | .nothing => .null

def toJsonItems : List Snapshot → List Json
  | [] => []
  | item :: rest => toJson item :: toJsonItems rest

def toJsonEntries : List (String × Snapshot) → List (String × Json)
  | [] => []
  | (key, value) :: rest => (key, toJson value) :: toJsonEntries rest

end

mutual

/-- The value that stands for a host value: arrays become lists, objects dictionaries. -/
def ofJson : Json → Snapshot
  | .null => .nothing
  | .bool b => .boolean b
  | .int n => .number (Number.ofInt n)
  | .float x => .number x
  | .str s => .text s
  | .arr items => .list (ofJsonItems items)
  | .obj entries => .dict (ofJsonEntries entries)

def ofJsonItems : List Json → List Snapshot
  | [] => []
  | item :: rest => ofJson item :: ofJsonItems rest

def ofJsonEntries : List (String × Json) → List (String × Snapshot)
  | [] => []
  | (key, value) :: rest => (key, ofJson value) :: ofJsonEntries rest

end

mutual

/-- The value has the shape of the host value: numbers are compared as doubles, lists by
position, dictionaries by key whatever the order of their entries. -/
def matchesJson : Snapshot → Json → Bool
  | .number x, .int n => x == Number.ofInt n
  | .number x, .float y => x == y
  | .text s, .str t => s == t
  | .boolean a, .bool b => a == b
  | .nothing, .null => true
  | .list items, .arr js => matchesItems items js
  | .dict entries, .obj js => entries.length == js.length && matchesEntries entries js
  | _, _ => false

def matchesItems : List Snapshot → List Json → Bool
  | [], [] => true
  | item :: rest, j :: js => matchesJson item j && matchesItems rest js
  | _, _ => false

/-- Every entry has a partner of its key among the host's entries. -/
def matchesEntries : List (String × Snapshot) → List (String × Json) → Bool
  | [], _ => true
  | (key, value) :: rest, js =>
    (match js.lookup key with
      | some j => matchesJson value j
      | none => false) && matchesEntries rest js

end

end Snapshot
end Walkthrough
