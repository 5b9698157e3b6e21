import Walkthrough.Settings.Pattern

/-! What is logged. A filter is a list of directives; a directive is a level, or a target, a span in
brackets or both, which may have a level of their own. A span may name fields in braces, with a
value or a pattern for it. Of the directives that fit an event, the most special one decides. -/

namespace Walkthrough.LogFilter

inductive Level where
  | off
  | error
  | warn
  | info
  | debug
  | trace
deriving DecidableEq, Repr

namespace Level

/-- All levels, from the one that lets nothing through. -/
def all : List (Level × String) :=
  [(off, "off"), (error, "error"), (warn, "warn"), (info, "info"), (debug, "debug"),
   (trace, "trace")]

/-- A higher level lets more through. -/
def rank (level : Level) : Nat :=
  all.findIdx fun (l, _) => l = level

/-- A level by its name, in letters of either case, or by its number. -/
def read? (cs : List Char) : Option Level :=
  let digits := if cs.head? = some '+' then cs.drop 1 else cs
  let found :=
    if !digits.isEmpty && digits.all Number.isDigit then all[Number.digitsValue digits]?
    else all.find? fun (_, name) => name = String.ofList (cs.map Char.toLower)
  found.map Prod.fst

end Level

/-- A field that an event must have. -/
structure Field where
  name : List Char
  hasValue : Bool
deriving DecidableEq, Repr

/-- A field, after whose name a value may stand: a number or a pattern. -/
def Field.read? (cs : List Char) : Option Field :=
  if cs.isEmpty then none
  else match cs.splitOnP (· == '=') with
    | name :: value :: _ =>
      if (Number.read? value).isSome || Pattern.isValid value then some ⟨name, true⟩ else none
    | _ => some ⟨cs, false⟩

structure Directive where
  target : Option (List Char) := none
  hasSpan : Bool := false
  fields : List Field := []
  level : Level := .trace
deriving DecidableEq, Repr

inductive Fault where
  | malformed
  /-- A part would begin or end inside a character. -/
  | split
deriving DecidableEq, Repr

def orMalformed {α : Type} (found : Option α) : Except Fault α :=
  match found with
  | some a => .ok a
  | none => .error .malformed

/-- The characters that fill the first `size` bytes. -/
def takeBytes (size : Nat) : List Char → Except Fault (List Char)
  | [] => .ok []
  | c :: rest =>
    if size = 0 then .ok []
    else if size < c.utf8Size then .error .split
    else return c :: (← takeBytes (size - c.utf8Size) rest)

/-- The characters after the first `size` bytes. -/
def dropBytes (size : Nat) : List Char → Except Fault (List Char)
  | [] => .ok []
  | c :: rest =>
    if size = 0 then .ok (c :: rest)
    else if size < c.utf8Size then .error .split
    else dropBytes (size - c.utf8Size) rest

/-- The characters from one place up to another, places being counted in bytes. -/
def slice (start stop : Nat) (text : List Char) : Except Fault (List Char) := do
  dropBytes start (← takeBytes stop text)

/-- How far the reading of a directive is, with the places where its parts began. -/
inductive Stage where
  | start
  | target
  | span (since : Nat)
  | field (since : Nat)
  | afterFields
  | afterSpan
  | level (since : Nat)
deriving DecidableEq, Repr

/-- What may start a target. -/
def startsTarget (c : Char) : Bool :=
  Text.isAlphanumeric c || c = '_' || c = ':' || c = '-'

namespace Directive

/-- Reads a character at a place. Parts are cut out of `text`. -/
def step (text : List Char) (place : Nat) (c : Char) (d : Directive) :
    Stage → Except Fault (Directive × Stage)
  | .start =>
    if c = '[' then .ok (d, .span (place + 1)) else if startsTarget c then .ok (d, .target)
    else .error .malformed
  | .target =>
    if c = '=' then return ({ d with target := some (← slice 0 place text) }, .level (place + 1))
    else if c = '[' then
      return ({ d with target := some (← slice 0 place text) }, .span (place + 1))
    else .ok (d, .target)
  | .span since => do
    if c = ']' then
      let _ ← slice since place text
      return ({ d with hasSpan := true }, .afterSpan)
    else if c = '\x7b' then
      let name ← slice since place text
      return ({ d with hasSpan := !name.isEmpty }, .field (place + 1))
    else return (d, .span since)
  | .field since => do
    if c = '\x7d' then
      let field ← orMalformed (Field.read? (← slice since place text))
      return ({ d with fields := d.fields ++ [field] }, .afterFields)
    else return (d, .field since)
  | .afterFields => if c = ']' then .ok (d, .afterSpan) else .error .malformed
  | .afterSpan => if c = '=' then .ok (d, .level (place + 1)) else .error .malformed
  | .level since => .ok (d, .level since)

/-- Ends a directive. A word alone is a level, or else a target; a level that is left out lets
everything through. -/
def finish (text : List Char) (d : Directive) : Stage → Except Fault Directive
  | .target =>
    match Level.read? text with
    | some level => .ok { d with level }
    | none => .ok { d with target := some text }
  | .afterSpan => .ok d
  | .level since => do
    let name ← dropBytes since text
    if name.isEmpty then return d
    else return { d with level := ← orMalformed (Level.read? name) }
  | _ => .error .malformed

def readFrom (text : List Char) (place : Nat) (d : Directive) (stage : Stage) :
    List Char → Except Fault Directive
  | [] => d.finish text stage
  | c :: rest => do
    let (d, stage) ← d.step text place c stage
    readFrom text (place + c.utf8Size) d stage rest

/-- The form of a directive is that of its text without blanks around it, and places are counted
there. Its parts are cut at these places from the text as it was given, so that blanks before it
shift them, and a cut may go through a character. -/
def read (text : List Char) : Except Fault Directive :=
  readFrom text 0 {} .start (Text.trimChars text)

/-- Directives about spans, or about the values of fields, say nothing about events outside. -/
def isStatic (d : Directive) : Bool :=
  !d.hasSpan && d.fields.all fun field => !field.hasValue

end Directive

structure Event where
  level : Level
  target : List Char
  fields : List (List Char)

/-- The directive speaks of the event: the target starts as it says, and the fields are there. -/
def Directive.fits (d : Directive) (e : Event) : Bool :=
  d.isStatic && d.target.all (·.isPrefixOf e.target)
    && d.fields.all fun field => e.fields.contains field.name

/-- How special a directive is: a longer target counts most, then the number of fields, and last
the names of the fields in the order of a dictionary. -/
def Directive.order (d e : Directive) : Ordering :=
  let size (d : Directive) : Nat := (d.target.map fun t => t.length + 1).getD 0
  let names (d : Directive) : List (List Char) := d.fields.map (·.name)
  (compare (size d) (size e)).then
    ((compare d.fields.length e.fields.length).then (compare (names d) (names e)))

/-- A later directive goes before one that is not more special. -/
def Directive.yields (d later : Directive) : Bool :=
  (d.order later).isLE

end LogFilter

/-- Directives in the order in which they were given. -/
abbrev LogFilter := List LogFilter.Directive

namespace LogFilter

/-- Directives stand between commas; an empty one says nothing. -/
def read (filter : String) : Except Fault LogFilter :=
  ((filter.toList.splitOnP (· == ',')).filter fun text => !text.isEmpty).mapM Directive.read

/-- The directive that decides about an event. -/
def deciding? (filter : LogFilter) (e : Event) : Option Directive :=
  (filter.filter (·.fits e)).foldl (fun best d =>
    match best with
    | none => some d
    | some b => if b.yields d then some d else some b) none

/-- The event is logged. Without any directive, errors are. -/
def logs (filter : LogFilter) (e : Event) : Bool :=
  let level := if filter.isEmpty then some Level.error else (filter.deciding? e).map (·.level)
  level.any fun level => e.level.rank ≤ level.rank

end LogFilter
end Walkthrough
