import Walkthrough.Value.Snapshot

/-! Live values and the cells they share. Lists and dictionaries live in cells, a value names its
cell by number, and two values with one cell are the same list: what is written through one is
read through the other. -/

namespace Walkthrough

/-- A value of a running program. -/
inductive Value where
  | number (x : Float)
  | text (s : String)
  | boolean (b : Bool)
  | list (cell : Nat)
  | dict (cell : Nat)
  | nothing
deriving DecidableEq

namespace Value

instance : Inhabited Value := ⟨.nothing⟩

def typeName : Value → String
  | .number _ => "number"
  | .text _ => "string"
  | .boolean _ => "boolean"
  | .list _ => "list"
  | .dict _ => "dictionary"
  | .nothing => "null"

def number? : Value → Option Float
  | .number x => some x
  | _ => none

def text? : Value → Option String
  | .text s => some s
  | _ => none

def isText : Value → Bool
  | .text _ => true
  | _ => false

def isNothing : Value → Bool
  | .nothing => true
  | _ => false

/-- What counts as true where a program may use any value as a condition. -/
def isTruthy : Value → Bool
  | .number x => x != 0.0 && !x.isNaN
  | .text s => !s.isEmpty
  | .boolean b => b
  | .list _ => true
  | .dict _ => true
  | .nothing => false

end Value

/-- The cells of lists and of dictionaries, each kind numbered from 0. Cells are added and
written, never removed. -/
structure Heap where
  lists : Array (List Value) := #[]
  dicts : Array (List (String × Value)) := #[]

/-- Dictionary entries with the value of a key replaced in place, or a new entry at the end. -/
def putEntry {α : Type} (key : String) (value : α) : List (String × α) → List (String × α)
  | [] => [(key, value)]
  | entry :: rest =>
    if entry.1 = key then (key, value) :: rest else entry :: putEntry key value rest

namespace Heap

def empty : Heap := {}

instance : Inhabited Heap := ⟨empty⟩

/-- The items of a list cell; a cell that was never made has none. -/
def items (h : Heap) (cell : Nat) : List Value :=
  h.lists[cell]?.getD []

def entries (h : Heap) (cell : Nat) : List (String × Value) :=
  h.dicts[cell]?.getD []

def newList (h : Heap) (xs : List Value) : Value × Heap :=
  (.list h.lists.size, { h with lists := h.lists.push xs })

def newDict (h : Heap) (es : List (String × Value)) : Value × Heap :=
  (.dict h.dicts.size, { h with dicts := h.dicts.push es })

def setItems (h : Heap) (cell : Nat) (xs : List Value) : Heap :=
  { h with lists := h.lists.setIfInBounds cell xs }

def setEntries (h : Heap) (cell : Nat) (es : List (String × Value)) : Heap :=
  { h with dicts := h.dicts.setIfInBounds cell es }

/-- The number of cells. A chain of cells, each holding the next, is no longer than this unless
it comes back to one of its own cells. -/
def size (h : Heap) : Nat :=
  h.lists.size + h.dicts.size

/-- A copy of a value and all it reaches, through at most `depth` cells in a row. -/
def freezeTo (h : Heap) : Nat → Value → Snapshot
  | _, .number x => .number x
  | _, .text s => .text s
  | _, .boolean b => .boolean b
  | _, .nothing => .nothing
  | 0, .list _ => .list []
  | 0, .dict _ => .dict []
  | depth + 1, .list cell => .list ((h.items cell).map (freezeTo h depth))
  | depth + 1, .dict cell =>
    .dict ((h.entries cell).map fun entry => (entry.1, freezeTo h depth entry.2))

def freeze (h : Heap) (v : Value) : Snapshot :=
  freezeTo h h.size v

mutual

/-- A live value that shows what the snapshot shows, in cells of its own. -/
def thaw (h : Heap) : Snapshot → Value × Heap
  | .number x => (.number x, h)
  | .text s => (.text s, h)
  | .boolean b => (.boolean b, h)
  | .nothing => (.nothing, h)
  | .list items =>
    let (xs, h) := thawItems h items
    h.newList xs
  | .dict entries =>
    let (es, h) := thawEntries h entries
    h.newDict es

def thawItems (h : Heap) : List Snapshot → List Value × Heap
  | [] => ([], h)
  | item :: rest =>
    let (x, h) := thaw h item
    let (xs, h) := thawItems h rest
    (x :: xs, h)

def thawEntries (h : Heap) : List (String × Snapshot) → List (String × Value) × Heap
  | [] => ([], h)
  | (key, item) :: rest =>
    let (x, h) := thaw h item
    let (es, h) := thawEntries h rest
    ((key, x) :: es, h)

end

/-- A value like the given one that shares no cell with anything. -/
def deepCopy (h : Heap) (v : Value) : Value × Heap :=
  h.thaw (h.freeze v)

def display (h : Heap) (v : Value) : String :=
  (h.freeze v).display

def output (h : Heap) (v : Value) : String :=
  (h.freeze v).output

end Heap
end Walkthrough
