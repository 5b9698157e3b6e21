import Walkthrough.Value.Operators

/-! Elements and properties in the JavaScript subset. Arrays and texts count from 0, objects go by
key. -/

namespace Walkthrough.JavaScript

/-- The whole number that an index stands for. -/
def position (h : Heap) (index : Value) : Except Fault Int :=
  match index with
  | .number x =>
    if Number.isWhole x then .ok (Number.clampWord (Number.truncate x))
    else .error (.indexNotWhole (h.display index))
  | _ => .error (.indexNotNumber index.typeName)

/-- The item at a place counted from 0, if there is such a place. -/
def itemAt? {α : Type} (items : List α) (i : Int) : Option α :=
  if i < 0 then none else items[i.toNat]?

/-- Reads a property: an entry of an object, or the length of an array or text. -/
def readProperty (h : Heap) (object : Value) (property : String) : Except Fault Value :=
  match object with
  | .dict cell =>
    match (h.entries cell).lookup property with
    | some value => .ok value
    | none => .error (.propertyNotFound property)
  | .list cell =>
    if property = "length" then .ok (.number (Number.ofNat (h.items cell).length))
    else .error (.propertyNotFound property)
  | .text s =>
    if property = "length" then .ok (.number (Number.ofNat s.length))
    else .error (.propertyNotFound property)
  | _ => .error (.propertyNotFound property)

/-- Reads an element. An object takes any index, by the text it is written as. -/
def readElement (h : Heap) (object index : Value) : Except Fault Value :=
  match object with
  | .list cell => do
    let items := h.items cell
    let i ← position h index
    match itemAt? items i with
    | some item => .ok item
    | none => .error (.indexOutsideOnRead i items.length "list")
  | .text s => do
    let cs := s.toList
    let i ← position h index
    match itemAt? cs i with
    | some c => .ok (.text c.toString)
    | none => .error (.indexOutsideOnRead i cs.length "string")
  | .dict _ => readProperty h object (h.output index)
  | _ => .error (.cannotIndex object.typeName)

/-- Writes a property of an object; a new key goes to the end. -/
def writeProperty (h : Heap) (object : Value) (property : String) (value : Value) :
    Except Fault Heap :=
  match object with
  | .dict cell => .ok (h.setEntries cell (putEntry property value (h.entries cell)))
  | _ => .error .targetNotModifiable

/-- Writes an element. An array may grow by one at its end. -/
def writeElement (h : Heap) (object index value : Value) : Except Fault Heap :=
  match object with
  | .list cell => do
    let items := h.items cell
    let i ← position h index
    if i < 0 || (items.length : Int) < i then .error (.indexOutsideOnWrite i items.length "list")
    else if i = items.length then return h.setItems cell (items ++ [value])
    else return h.setItems cell (items.set i.toNat value)
  | .dict _ => writeProperty h object (h.output index) value
  | _ => .error .targetNotModifiable

end Walkthrough.JavaScript
