import Walkthrough.JavaScript.Run
import Walkthrough.JikiScript.Run

/-! Causes of failure by the operation that names them. Most causes may stand at any node; only a
write to an element finds that its target cannot be modified, and no operation at all finds that a
function is declared inside another statement. -/

namespace Walkthrough

namespace Fault

/-- The cause is not kept for the nodes that declare functions or write to elements. -/
def IsCommon : Fault → Prop
  | .nestedFunction _ => False
  | .targetNotModifiable => False
  | _ => True

/-- What a write to an element may fail with. -/
def IsOfWrite (fault : Fault) : Prop :=
  fault.IsCommon ∨ fault = .targetNotModifiable

end Fault

variable {α β : Type} {may : Fault → Prop}

def FailsBy (may : Fault → Prop) (x : Except Fault α) : Prop :=
  ∀ fault, x = .error fault → may fault

namespace FailsBy

theorem ok (a : α) : FailsBy may (.ok a) :=
  nofun

theorem error {fault : Fault} (allowed : may fault) :
    FailsBy may (.error fault : Except Fault α) := by
  rintro _ ⟨⟩
  exact allowed

theorem bind {x : Except Fault α} {k : α → Except Fault β} (hx : FailsBy may x)
    (hk : ∀ a, FailsBy may (k a)) : FailsBy may (x >>= k) := by
  intro fault failed
  cases x with
  | error _ =>
      cases failed
      exact hx fault rfl
  | ok a => exact hk a fault failed

theorem mono {may' : Fault → Prop} {x : Except Fault α} (h : FailsBy may x)
    (weaker : ∀ fault, may fault → may' fault) : FailsBy may' x :=
  fun fault failed => weaker fault (h fault failed)

end FailsBy

abbrev FailsCommonly (x : Except Fault α) : Prop :=
  FailsBy Fault.IsCommon x

namespace Value

theorem condition_fails (truthiness : Bool) (v : Value) :
    FailsCommonly (v.condition truthiness) := by
  unfold condition
  split
  · exact .ok _
  · split
    · exact .ok _
    · exact .error trivial

theorem numberOperand_fails (h : Heap) (v : Value) : FailsCommonly (v.numberOperand h) := by
  unfold numberOperand
  split
  · exact .ok _
  · exact .error trivial

theorem coercionFault_common (op : ArithmeticOp) (left right : Value) :
    (coercionFault op left right).IsCommon := by
  unfold coercionFault
  split
  · exact trivial
  · split <;> exact trivial

theorem arithmetic_fails (h : Heap) (op : ArithmeticOp) (left right : Value) (coercion : Bool) :
    FailsCommonly (arithmetic h op left right coercion) := by
  unfold arithmetic
  split
  · exact .ok _
  · exact .ok _
  · split
    · exact .ok _
    · exact .error (coercionFault_common op left right)

theorem compare_fails (op : ComparisonOp) (left right : Value) :
    FailsCommonly (compare op left right) := by
  unfold compare
  split
  · exact .ok _
  · exact .error trivial
  · exact .error trivial

end Value

namespace Scopes

variable (s : Scopes) (name : String) (v : Value)

theorem missing_common : (s.missing name).IsCommon := by
  unfold missing
  split <;> exact trivial

theorem get_fails : FailsCommonly (s.get name) := by
  unfold get
  split
  · exact .ok _
  · exact .error (s.missing_common name)

theorem declare_fails (constant : Bool) : FailsCommonly (s.declare name v constant) := by
  unfold declare
  split
  · exact .error trivial
  · split
    · exact .error trivial
    · exact .ok _

theorem assign_fails : FailsCommonly (s.assign name v) := by
  unfold assign
  split
  · exact .error (s.missing_common name)
  · split
    · exact .error trivial
    · dsimp only
      split
      · exact .ok _
      · exact .ok _

end Scopes

namespace JikiScript

variable (h : Heap)

theorem equality_fails (left right : Value) : FailsCommonly (equality left right) := by
  unfold equality
  split
  · exact .error trivial
  · exact .ok _

theorem arithmetic_fails (op : ArithmeticOp) (left right : Value) :
    FailsCommonly (arithmetic h op left right) :=
  .bind (left.numberOperand_fails h) fun _ => .bind (right.numberOperand_fails h) fun _ => .ok _

theorem comparison_fails (op : ComparisonOp) (left right : Value) :
    FailsCommonly (comparison h op left right) :=
  .bind (left.numberOperand_fails h) fun _ => .bind (right.numberOperand_fails h) fun _ => .ok _

theorem binary_fails (left right : Value) (op : BinaryOp) :
    FailsCommonly (binary h left right op) := by
  cases op with
  | add | subtract | multiply | divide | remainder => exact arithmetic_fails h _ left right
  | less | lessEqual | greater | greaterEqual => exact comparison_fails h _ left right
  | equal | notEqual => exact .bind (equality_fails left right) fun _ => .ok _

theorem unary_fails (truthiness : Bool) (v : Value) (op : UnaryOp) :
    FailsCommonly (unary h truthiness v op) := by
  cases op with
  | negate => exact .bind (v.numberOperand_fails h) fun _ => .ok _
  | not => exact .bind (v.condition_fails truthiness) fun _ => .ok _

theorem offset_fails (index : Value) (length : Nat) (outside : Int → Nat → Fault)
    (common : ∀ i n, (outside i n).IsCommon) : FailsCommonly (offset h index length outside) := by
  unfold offset
  split
  · dsimp only
    split
    · exact .error trivial
    · split
      · exact .error trivial
      · split
        · exact .error (common _ _)
        · exact .ok _
  · exact .error trivial

theorem readElement_fails (object index : Value) : FailsCommonly (readElement h object index) := by
  cases object with
  | list cell => exact .bind (offset_fails h index _ _ fun _ _ => trivial) fun _ => .ok _
  | text s => exact .bind (offset_fails h index _ _ fun _ _ => trivial) fun _ => .ok _
  | dict cell =>
      simp only [readElement]
      split
      · exact .ok _
      · exact .error trivial
  | number _ | boolean _ | nothing => exact .error trivial

theorem writeElement_fails (object index value : Value) :
    FailsBy Fault.IsOfWrite (writeElement h object index value) := by
  cases object with
  | list cell =>
      have common := offset_fails h index (h.items cell).length (.indexOutsideOnWrite · · "list")
        fun _ _ => trivial
      exact .bind (common.mono fun _ => Or.inl) fun _ => .ok _
  | dict cell =>
      cases index with
      | text key => exact .ok _
      | number _ | boolean _ | list _ | dict _ | nothing => exact .error (Or.inl trivial)
  | number _ | text _ | boolean _ | nothing => exact .error (Or.inr rfl)

theorem repeatCount_fails (count : Value) (limit : UInt64) :
    FailsCommonly (repeatCount h count limit) := by
  unfold repeatCount
  split
  · split
    · exact .error trivial
    · split
      · exact .error trivial
      · split
        · exact .error trivial
        · split
          · exact .error trivial
          · exact .ok _
  · exact .error trivial

end JikiScript

namespace JavaScript

variable (h : Heap)

theorem signed_fails (coercion : Bool) (operator : String) (apply : Float → Float) (v : Value) :
    FailsCommonly (signed coercion operator apply v) := by
  unfold signed
  split
  · exact .ok _
  · split
    · exact .ok _
    · exact .error trivial

theorem unary_fails (features : Features) (v : Value) (op : UnaryOp) :
    FailsCommonly (unary features v op) := by
  cases op with
  | not => exact .bind (v.condition_fails features.truthiness) fun _ => .ok _
  | negate | plus => exact signed_fails features.coercion _ _ v

theorem looseEquality_fails (features : Features) (operator : String) (left right : Value) :
    FailsCommonly (looseEquality features operator left right) := by
  unfold looseEquality
  split
  · exact .error trivial
  · exact .ok _

theorem binary_fails (features : Features) (left right : Value) (op : BinaryOp) :
    FailsCommonly (binary features h left right op) := by
  cases op with
  | add | subtract | multiply | divide | remainder =>
      exact Value.arithmetic_fails h _ left right features.coercion
  | less | lessEqual | greater | greaterEqual =>
      exact .bind (Value.compare_fails _ left right) fun _ => .ok _
  | looseEqual | looseNotEqual =>
      exact .bind (looseEquality_fails features _ left right) fun _ => .ok _
  | strictEqual | strictNotEqual => exact .ok _

theorem position_fails (index : Value) : FailsCommonly (position h index) := by
  unfold position
  split
  · split
    · exact .ok _
    · exact .error trivial
  · exact .error trivial

theorem readProperty_fails (object : Value) (property : String) :
    FailsCommonly (readProperty h object property) := by
  unfold readProperty
  split
  · split
    · exact .ok _
    · exact .error trivial
  · split
    · exact .ok _
    · exact .error trivial
  · split
    · exact .ok _
    · exact .error trivial
  · exact .error trivial

theorem readElement_fails (object index : Value) : FailsCommonly (readElement h object index) := by
  cases object with
  | list cell | text s =>
      refine .bind (position_fails h index) fun i => ?_
      split
      · exact .ok _
      · exact .error trivial
  | dict cell => exact readProperty_fails h (.dict cell) (h.output index)
  | number _ | boolean _ | nothing => exact .error trivial

theorem writeProperty_fails (object : Value) (property : String) (value : Value) :
    FailsBy Fault.IsOfWrite (writeProperty h object property value) := by
  unfold writeProperty
  split
  · exact .ok _
  · exact .error (Or.inr rfl)

theorem writeElement_fails (object index value : Value) :
    FailsBy Fault.IsOfWrite (writeElement h object index value) := by
  cases object with
  | list cell =>
      refine .bind ((position_fails h index).mono fun _ => Or.inl) fun i => ?_
      split
      · exact .error (Or.inl trivial)
      · split
        · exact .ok _
        · exact .ok _
  | dict cell => exact writeProperty_fails h (.dict cell) (h.output index) value
  | number _ | text _ | boolean _ | nothing => exact .error (Or.inr rfl)

end JavaScript
end Walkthrough
