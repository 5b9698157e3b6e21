/-! The values of a TOML document, and how its lines build the tree of tables. A table remembers how
it came about, since that decides what later lines may still add to it. -/

namespace Walkthrough.Toml

/-- How a table came about. -/
inductive Origin where
  /-- A header names the table, or it is the document itself. -/
  | header
  /-- A header names a table inside it. -/
  | implied
  /-- A dotted key goes through it. -/
  | dotted
  /-- It is written as a value, between braces. -/
  | inline
deriving DecidableEq, Repr

inductive Node where
  | text (s : String)
  | integer (n : Int)
  | float (x : Float)
  | bool (b : Bool)
  /-- A date or a time; which one is not kept. -/
  | moment
  | list (items : List Node)
  | table (origin : Origin) (entries : List (String × Node))
  /-- A list of tables made by headers; lines go to the last one. -/
  | tables (earlier : List Node) (last : List (String × Node))

instance : Inhabited Node := ⟨.moment⟩

/-- The entries of a table in the order of their first appearance. -/
abbrev Entries := List (String × Node)

namespace Entries

/-- Puts a node in the place of the entry with this key, or behind all entries. -/
def put (key : String) (node : Node) : Entries → Entries
  | [] => [(key, node)]
  | entry :: rest => if entry.1 = key then (key, node) :: rest else entry :: put key node rest

/-- Changes the table at the end of a path. Tables on the way that are not there yet are made; a
path goes through the last table of a list of tables. Inside a table dotted keys do not go into
tables that have a header of their own, and nothing goes into an inline table or through a value. -/
def descend (byDots : Bool) (change : Origin → Entries → Option Entries) :
    List String → Origin → Entries → Option Entries
  | [], origin, entries => change origin entries
  | key :: path, _, entries =>
    match entries.lookup key with
    | none => do
      let origin := if byDots then Origin.dotted else Origin.implied
      let inner ← descend byDots change path origin []
      return put key (.table origin inner) entries
    | some (.table origin inner) =>
      if origin = .inline || (byDots && origin = .header) then none
      else do
        let inner ← descend byDots change path origin inner
        return put key (.table origin inner) entries
    | some (.tables earlier last) => do
      let last ← descend byDots change path .header last
      return put key (.tables earlier last) entries
    | some _ => none

/-- Adds the value of a dotted key to a table. A key has one value, and a table that a dotted key
leads to was made by dotted keys. -/
def assign (path : List String) (key : String) (node : Node) (origin : Origin) (entries : Entries) :
    Option Entries :=
  let add (reached : Origin) (inner : Entries) : Option Entries :=
    if (reached = .dotted) == path.isEmpty || (inner.lookup key).isSome then none
    else some (put key node inner)
  descend true add path origin entries

/-- Opens the table of a header. A table has one header; headers of tables inside it may come
first. -/
def openTable (path : List String) (key : String) (entries : Entries) : Option Entries :=
  let add (_ : Origin) (inner : Entries) : Option Entries :=
    match inner.lookup key with
    | none => some (put key (.table .header []) inner)
    | some (.table .implied members) => some (put key (.table .header members) inner)
    | some _ => none
  descend false add path .header entries

/-- Opens one more table of a list of tables. -/
def openListed (path : List String) (key : String) (entries : Entries) : Option Entries :=
  let add (_ : Origin) (inner : Entries) : Option Entries :=
    match inner.lookup key with
    | none => some (put key (.tables [] []) inner)
    | some (.tables earlier last) =>
      some (put key (.tables (earlier ++ [.table .header last]) []) inner)
    | some _ => none
  descend false add path .header entries

end Entries
end Walkthrough.Toml
