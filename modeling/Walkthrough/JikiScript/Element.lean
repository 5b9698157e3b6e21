import Walkthrough.Value.Operators

/-! Elements of JikiScript collections. Lists and texts count from 1, dictionaries go by key. -/

namespace Walkthrough.JikiScript

/-- The offset that an index counted from 1 stands for in a sequence. `outside` is the cause when
there is no such place. -/
def offset (h : Heap) (index : Value) (length : Nat) (outside : Int → Nat → Fault) :
    Except Fault Nat :=
  match index with
  | .number x =>
    let i := Number.clampWord (Number.truncate x)
    if !Number.isWhole x then .error (.indexNotWhole (h.display index))
    else if i = 0 then .error .indexZero
    else if i < 0 || (length : Int) < i then .error (outside i length)
    else .ok (i.toNat - 1)
  | _ => .error (.indexNotNumber index.typeName)

/-- Reads an element. A dictionary takes any index, by the text it is written as. -/
def readElement (h : Heap) (object index : Value) : Except Fault Value :=
  match object with
  | .list cell => do
    let items := h.items cell
    let i ← offset h index items.length (.indexOutsideOnRead · · "list")
    return items[i]?.getD .nothing
  | .text s => do
    let cs := s.toList
    let i ← offset h index cs.length (.indexOutsideOnRead · · "string")
    return .text ((cs[i]?.map (·.toString)).getD "")
  | .dict cell =>
    let key := h.output index
    match (h.entries cell).lookup key with
    | some value => .ok value
    | none => .error (.keyNotFound key)
  | _ => .error (.cannotIndex object.typeName)

/-- Writes an element. A list has to have the place already; a dictionary gets a new entry at the
end for a new key, and its keys are texts. -/
def writeElement (h : Heap) (object index value : Value) : Except Fault Heap :=
  match object with
  | .list cell => do
    let items := h.items cell
    let i ← offset h index items.length (.indexOutsideOnWrite · · "list")
    return h.setItems cell (items.set i value)
  | .dict cell =>
    match index with
    | .text key => .ok (h.setEntries cell (putEntry key value (h.entries cell)))
    | _ => .error (.keyNotFound (h.display index))
  | _ => .error .targetNotModifiable

end Walkthrough.JikiScript
