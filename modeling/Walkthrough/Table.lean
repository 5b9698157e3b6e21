/-! Finite maps with text keys, kept as entries in increasing order of their keys. One key has at
most one entry, and two tables with the same look-ups are the same list. -/

namespace Walkthrough

/-- Entries in increasing key order, when built by `insert` from `empty`. -/
structure Table (α : Type) where
  entries : List (String × α)
deriving DecidableEq, Repr

namespace Table

variable {α : Type}

def empty : Table α := ⟨[]⟩

instance : Inhabited (Table α) := ⟨empty⟩

/-- Puts an entry in its place, over an entry with the same key. -/
def insertEntry (key : String) (value : α) : List (String × α) → List (String × α)
  | [] => [(key, value)]
  | entry :: rest =>
    if key < entry.1 then (key, value) :: entry :: rest
    else if key = entry.1 then (key, value) :: rest
    else entry :: insertEntry key value rest

def insert (t : Table α) (key : String) (value : α) : Table α :=
  ⟨insertEntry key value t.entries⟩

def get? (t : Table α) (key : String) : Option α :=
  t.entries.lookup key

def contains (t : Table α) (key : String) : Bool :=
  (t.get? key).isSome

def erase (t : Table α) (key : String) : Table α :=
  ⟨t.entries.filter fun entry => entry.1 ≠ key⟩

/-- All entries of `top`, and those of `base` with other keys. -/
def overlay (base top : Table α) : Table α :=
  top.entries.foldl (fun t entry => t.insert entry.1 entry.2) base

def ofList (entries : List (String × α)) : Table α :=
  entries.foldl (fun t entry => t.insert entry.1 entry.2) empty

def map {β : Type} (f : α → β) (t : Table α) : Table β :=
  ⟨t.entries.map fun entry => (entry.1, f entry.2)⟩

def keys (t : Table α) : List String :=
  t.entries.map (·.1)

end Table
end Walkthrough
