import Walkthrough.JavaScript.ExprParser
import Walkthrough.Proofs.Reading

/-! The grammar of JavaScript expressions. Every form has a rank, the tighter the higher; an
expression is canonical if each operand is at least as tight as its place asks for, and if only
names, members and elements are assigned to or updated. An expression may be written with a comma
behind the last element of an array or object, and with names or texts as the keys of an object. -/

namespace Walkthrough.JavaScript

def Literal.token : Literal → Token
  | .number x => .number x
  | .text s => .text s
  | .boolean true => .word .trueWord
  | .boolean false => .word .falseWord
  | .null => .word .nullWord
  | .undefined => .word .undefinedWord

def UnaryOp.sign : UnaryOp → Mark
  | .not => .bang
  | .negate => .minus
  | .plus => .plus

def UpdateOp.sign : UpdateOp → Mark
  | .increment => .plusPlus
  | .decrement => .minusMinus

def BinaryOp.sign : BinaryOp → Mark
  | .add => .plus
  | .subtract => .minus
  | .multiply => .star
  | .divide => .slash
  | .remainder => .percent
  | .strictEqual => .eqEqEq
  | .strictNotEqual => .notEqEq
  | .looseEqual => .eqEq
  | .looseNotEqual => .notEq
  | .less => .lt
  | .lessEqual => .le
  | .greater => .gt
  | .greaterEqual => .ge

def LogicalOp.sign : LogicalOp → Mark
  | .and => .andAnd
  | .or => .orOr

def AssignOp.sign : AssignOp → Mark
  | .assign => .assign
  | .add => .plusAssign
  | .subtract => .minusAssign
  | .multiply => .starAssign
  | .divide => .slashAssign

def LogicalOp.rank : LogicalOp → Nat
  | .or => 2
  | .and => 3

def BinaryOp.rank : BinaryOp → Nat
  | .strictEqual => 4
  | .strictNotEqual => 4
  | .looseEqual => 4
  | .looseNotEqual => 4
  | .less => 5
  | .lessEqual => 5
  | .greater => 5
  | .greaterEqual => 5
  | .add => 6
  | .subtract => 6
  | .multiply => 7
  | .divide => 7
  | .remainder => 7

theorem LogicalOp.rank_le (op : LogicalOp) : op.rank ≤ 3 := by
  cases op <;> decide

theorem BinaryOp.rank_le (op : BinaryOp) : op.rank ≤ 7 := by
  cases op <;> decide

theorem LogicalOp.le_rank (op : LogicalOp) : 2 ≤ op.rank := by
  cases op <;> decide

theorem BinaryOp.le_rank (op : BinaryOp) : 4 ≤ op.rank := by
  cases op <;> decide

namespace Expr

/-- How tightly the outermost form binds. -/
def rank : Expr → Nat
  | .assignment _ _ _ _ => 0
  | .conditional _ _ _ _ => 1
  | .logical op _ _ _ => op.rank
  | .binary op _ _ _ => op.rank
  | .unary _ _ _ => 8
  | .update _ true _ _ => 8
  | .update _ false _ _ => 9
  | .call _ _ _ => 10
  | .member _ _ _ => 10
  | .index _ _ _ => 10
  | _ => 11

mutual

def bare : Expr → Expr
  | .literal value _ => .literal value {}
  | .name word _ => .name word {}
  | .array elements _ => .array (bareAll elements) {}
  | .object properties _ => .object (bareProperties properties) {}
  | .unary op operand _ => .unary op operand.bare {}
  | .binary op left right _ => .binary op left.bare right.bare {}
  | .logical op left right _ => .logical op left.bare right.bare {}
  | .conditional test onTrue onFalse _ => .conditional test.bare onTrue.bare onFalse.bare {}
  | .assignment op target value _ => .assignment op target.bare value.bare {}
  | .update op before target _ => .update op before target.bare {}
  | .call callee args _ => .call callee.bare (bareAll args) {}
  | .member owner property _ => .member owner.bare property {}
  | .index owner key _ => .index owner.bare key.bare {}
  | .grouping inner _ => .grouping inner.bare {}

def bareAll : List Expr → List Expr
  | [] => []
  | e :: rest => e.bare :: bareAll rest

def bareProperties : List (String × Expr) → List (String × Expr)
  | [] => []
  | (key, e) :: rest => (key, e.bare) :: bareProperties rest

end

mutual

/-- Each operand is as tight as its place asks for, and each target can be stored to. -/
def isCanonical : Expr → Bool
  | .literal _ _ => true
  | .name _ _ => true
  | .array elements _ => allCanonical elements
  | .object properties _ => propertiesCanonical properties
  | .unary _ operand _ => decide (8 ≤ operand.rank) && operand.isCanonical
  | .binary op left right _ =>
    decide (op.rank ≤ left.rank) && decide (op.rank + 1 ≤ right.rank) &&
      (left.isCanonical && right.isCanonical)
  | .logical op left right _ =>
    decide (op.rank ≤ left.rank) && decide (op.rank + 1 ≤ right.rank) &&
      (left.isCanonical && right.isCanonical)
  | .conditional test onTrue onFalse _ =>
    decide (2 ≤ test.rank) && (test.isCanonical && (onTrue.isCanonical && onFalse.isCanonical))
  | .assignment _ target value _ =>
    target.isAssignable && (target.isCanonical && value.isCanonical)
  | .update _ _ target _ => target.isAssignable && target.isCanonical
  | .call callee args _ => decide (10 ≤ callee.rank) && (callee.isCanonical && allCanonical args)
  | .member owner _ _ => decide (10 ≤ owner.rank) && owner.isCanonical
  | .index owner key _ => decide (10 ≤ owner.rank) && (owner.isCanonical && key.isCanonical)
  | .grouping inner _ => inner.isCanonical

def allCanonical : List Expr → Bool
  | [] => true
  | e :: rest => e.isCanonical && allCanonical rest

def propertiesCanonical : List (String × Expr) → Bool
  | [] => true
  | (_, e) :: rest => e.isCanonical && propertiesCanonical rest

end

/-- Nothing is called, accessed or updated behind an update that ends the expression. -/
def endsInUpdate : Expr → Bool
  | .update _ false _ _ => true
  | .unary _ operand _ => operand.endsInUpdate
  | .binary _ _ right _ => right.endsInUpdate
  | .logical _ _ right _ => right.endsInUpdate
  | .conditional _ _ onFalse _ => onFalse.endsInUpdate
  | .assignment _ _ value _ => value.endsInUpdate
  | _ => false

theorem isAssignable_bare (e : Expr) : e.bare.isAssignable = e.isAssignable := by
  cases e <;> rfl

theorem isAssignable_eq_of_bare {e e' : Expr} (same : e'.bare = e.bare) :
    e'.isAssignable = e.isAssignable := by
  rw [← isAssignable_bare e', same, isAssignable_bare]

theorem rank_of_isAssignable {e : Expr} (target : e.isAssignable = true) : 10 ≤ e.rank := by
  cases e with
  | name | member | index => simp [rank]
  | _ => cases target

theorem endsInUpdate_of_tight {e : Expr} (tight : 10 ≤ e.rank) : e.endsInUpdate = false := by
  cases e with
  | update op before target pos => cases before <;> exact absurd tight (by simp [rank])
  | unary | conditional | assignment => exact absurd tight (by simp [rank])
  | binary op =>
      have loose : op.rank ≤ 7 := op.rank_le
      exact absurd (Nat.le_trans tight loose) (by decide)
  | logical op =>
      have loose : op.rank ≤ 3 := op.rank_le
      exact absurd (Nat.le_trans tight loose) (by decide)
  | _ => rfl

end Expr

/-- Items divided by commas; a comma may end them only if trailing commas are allowed. -/
inductive Items {α : Type} (spells : α → List Token → Prop) (trailing : Bool) :
    List α → List Token → Prop
  | none : Items spells trailing [] []
  | last {a : α} {ts : List Token} : spells a ts → Items spells trailing [a] ts
  | more {a : α} {rest : List α} {ts us : List Token} : spells a ts →
      (rest = [] → trailing = true) → Items spells trailing rest us →
      Items spells trailing (a :: rest) (ts ++ (.mark .comma :: us))

/-- A key, a name or a text, then a colon and the value. -/
inductive Property (spells : Expr → List Token → Prop) : String × Expr → List Token → Prop
  | name {key : String} {e : Expr} {ts : List Token} : spells e ts →
      Property spells (key, e) (.name key :: .mark .colon :: ts)
  | text {key : String} {e : Expr} {ts : List Token} : spells e ts →
      Property spells (key, e) (.text key :: .mark .colon :: ts)

/-- How an expression may be written. -/
inductive Spells : Expr → List Token → Prop
  | literal (value : Literal) (pos : Position) : Spells (.literal value pos) [value.token]
  | name (s : String) (pos : Position) : Spells (.name s pos) [.name s]
  | array {elements : List Expr} {ts : List Token} (pos : Position) :
      Items Spells true elements ts →
      Spells (.array elements pos) (.mark .lBracket :: (ts ++ [.mark .rBracket]))
  | object {properties : List (String × Expr)} {ts : List Token} (pos : Position) :
      Items (Property Spells) true properties ts →
      Spells (.object properties pos) (.mark .lBrace :: (ts ++ [.mark .rBrace]))
  | unary {operand : Expr} {ts : List Token} (op : UnaryOp) (pos : Position) :
      Spells operand ts → Spells (.unary op operand pos) (.mark op.sign :: ts)
  | updateBefore {target : Expr} {ts : List Token} (op : UpdateOp) (pos : Position) :
      Spells target ts → Spells (.update op true target pos) (.mark op.sign :: ts)
  | updateBehind {target : Expr} {ts : List Token} (op : UpdateOp) (pos : Position) :
      Spells target ts → Spells (.update op false target pos) (ts ++ [.mark op.sign])
  | binary {left right : Expr} {ts us : List Token} (op : BinaryOp) (pos : Position) :
      Spells left ts → Spells right us →
      Spells (.binary op left right pos) (ts ++ ([.mark op.sign] ++ us))
  | logical {left right : Expr} {ts us : List Token} (op : LogicalOp) (pos : Position) :
      Spells left ts → Spells right us →
      Spells (.logical op left right pos) (ts ++ ([.mark op.sign] ++ us))
  | conditional {test onTrue onFalse : Expr} {ts us vs : List Token} (pos : Position) :
      Spells test ts → Spells onTrue us → Spells onFalse vs →
      Spells (.conditional test onTrue onFalse pos)
        (ts ++ (.mark .question :: (us ++ (.mark .colon :: vs))))
  | assignment {target value : Expr} {ts us : List Token} (op : AssignOp) (pos : Position) :
      Spells target ts → Spells value us →
      Spells (.assignment op target value pos) (ts ++ (.mark op.sign :: us))
  | call {callee : Expr} {args : List Expr} {ts us : List Token} (pos : Position) :
      Spells callee ts → Items Spells false args us →
      Spells (.call callee args pos) (ts ++ (.mark .lParen :: (us ++ [.mark .rParen])))
  | member {object : Expr} {ts : List Token} (property : String) (pos : Position) :
      Spells object ts →
      Spells (.member object property pos) (ts ++ [.mark .dot, .name property])
  | index {object key : Expr} {ts us : List Token} (pos : Position) : Spells object ts →
      Spells key us →
      Spells (.index object key pos) (ts ++ (.mark .lBracket :: (us ++ [.mark .rBracket])))
  | grouping {inner : Expr} {ts : List Token} (pos : Position) : Spells inner ts →
      Spells (.grouping inner pos) (.mark .lParen :: (ts ++ [.mark .rParen]))

/-! ### Printing -/

def withCommas : List (List Token) → List Token
  | [] => []
  | [ts] => ts
  | ts :: rest => ts ++ (.mark .comma :: withCommas rest)

mutual

/-- The printing without trailing commas and with texts as keys. -/
def Expr.print : Expr → List Token
  | .literal value _ => [value.token]
  | .name word _ => [.name word]
  | .array elements _ => .mark .lBracket :: (withCommas (printAll elements) ++ [.mark .rBracket])
  | .object properties _ =>
    .mark .lBrace :: (withCommas (printProperties properties) ++ [.mark .rBrace])
  | .unary op operand _ => .mark op.sign :: operand.print
  | .update op true target _ => .mark op.sign :: target.print
  | .update op false target _ => target.print ++ [.mark op.sign]
  | .binary op left right _ => left.print ++ ([.mark op.sign] ++ right.print)
  | .logical op left right _ => left.print ++ ([.mark op.sign] ++ right.print)
  | .conditional test onTrue onFalse _ =>
    test.print ++ (.mark .question :: (onTrue.print ++ (.mark .colon :: onFalse.print)))
  | .assignment op target value _ => target.print ++ (.mark op.sign :: value.print)
  | .call callee args _ =>
    callee.print ++ (.mark .lParen :: (withCommas (printAll args) ++ [.mark .rParen]))
  | .member owner property _ => owner.print ++ [.mark .dot, .name property]
  | .index owner key _ => owner.print ++ (.mark .lBracket :: (key.print ++ [.mark .rBracket]))
  | .grouping inner _ => .mark .lParen :: (inner.print ++ [.mark .rParen])

def Expr.printAll : List Expr → List (List Token)
  | [] => []
  | e :: rest => e.print :: printAll rest

def Expr.printProperties : List (String × Expr) → List (List Token)
  | [] => []
  | (key, e) :: rest => (.text key :: .mark .colon :: e.print) :: printProperties rest

end

theorem items_withCommas {α : Type} {spells : α → List Token → Prop} {trailing : Bool}
    {xs : List α} {printings : List (List Token)} (each : List.Forall₂ spells xs printings) :
    Items spells trailing xs (withCommas printings) := by
  induction each with
  | nil => exact .none
  | cons first rest ih =>
      cases rest with
      | nil => exact .last first
      | cons second rest => exact .more first nofun ih

mutual

theorem spells_print : ∀ e : Expr, Spells e e.print
  | .literal value pos => .literal value pos
  | .name word pos => .name word pos
  | .array elements pos => .array pos (items_withCommas (spells_printAll elements))
  | .object properties pos => .object pos (items_withCommas (spells_printProperties properties))
  | .unary op operand pos => .unary op pos (spells_print operand)
  | .update op true target pos => .updateBefore op pos (spells_print target)
  | .update op false target pos => .updateBehind op pos (spells_print target)
  | .binary op left right pos => .binary op pos (spells_print left) (spells_print right)
  | .logical op left right pos => .logical op pos (spells_print left) (spells_print right)
  | .conditional test onTrue onFalse pos =>
      .conditional pos (spells_print test) (spells_print onTrue) (spells_print onFalse)
  | .assignment op target value pos => .assignment op pos (spells_print target) (spells_print value)
  | .call callee args pos =>
      .call pos (spells_print callee) (items_withCommas (spells_printAll args))
  | .member object property pos => .member property pos (spells_print object)
  | .index object key pos => .index pos (spells_print object) (spells_print key)
  | .grouping inner pos => .grouping pos (spells_print inner)

theorem spells_printAll : ∀ es : List Expr, List.Forall₂ Spells es (Expr.printAll es)
  | [] => .nil
  | e :: rest => .cons (spells_print e) (spells_printAll rest)

theorem spells_printProperties : ∀ es : List (String × Expr),
    List.Forall₂ (Property Spells) es (Expr.printProperties es)
  | [] => .nil
  | (_, e) :: rest => .cons (.text (spells_print e)) (spells_printProperties rest)

end

/-! ### What an expression begins with -/

namespace Token

/-- What stands by itself begins with the token. -/
def startsOperand : Token → Bool
  | .number _ => true
  | .text _ => true
  | .name _ => true
  | .word k => [.trueWord, .falseWord, .nullWord, .undefinedWord].contains k
  | .mark m => [.lParen, .lBracket, .lBrace].contains m

/-- A prefix sign, or what stands by itself, begins with the token. -/
def starts : Token → Bool
  | .mark m =>
    [.bang, .minus, .plus, .plusPlus, .minusMinus, .lParen, .lBracket, .lBrace].contains m
  | t => t.startsOperand

end Token

variable {e : Expr} {ts : List Token}

theorem Literal.startsOperand (value : Literal) : value.token.startsOperand = true := by
  cases value with
  | boolean b => cases b <;> decide
  | number x | text s | null | undefined => rfl

theorem Literal.starts (value : Literal) : value.token.starts = true := by
  cases value with
  | boolean b => cases b <;> decide
  | number x | text s | null | undefined => rfl

theorem Spells.starts : ∀ (e : Expr) {ts : List Token}, Spells e ts →
    ∃ t rest, ts = t :: rest ∧ t.starts = true
  | .literal _ _, _, .literal value _ => ⟨value.token, [], rfl, value.starts⟩
  | .name _ _, _, .name _ _ => ⟨_, _, rfl, rfl⟩
  | .array _ _, _, .array _ _ => ⟨_, _, rfl, rfl⟩
  | .object _ _, _, .object _ _ => ⟨_, _, rfl, rfl⟩
  | .grouping _ _, _, .grouping _ _ => ⟨_, _, rfl, rfl⟩
  | .unary _ _ _, _, .unary op _ _ => ⟨_, _, rfl, by cases op <;> decide⟩
  | .update _ true _ _, _, .updateBefore op _ _ => ⟨_, _, rfl, by cases op <;> decide⟩
  | .update _ false target _, _, .updateBehind _ _ first => by
      obtain ⟨t, rest, rfl, starts⟩ := Spells.starts target first
      exact ⟨t, _, rfl, starts⟩
  | .binary _ left _ _, _, .binary _ _ first _ => by
      obtain ⟨t, rest, rfl, starts⟩ := Spells.starts left first
      exact ⟨t, _, rfl, starts⟩
  | .logical _ left _ _, _, .logical _ _ first _ => by
      obtain ⟨t, rest, rfl, starts⟩ := Spells.starts left first
      exact ⟨t, _, rfl, starts⟩
  | .conditional test _ _ _, _, .conditional _ first _ _ => by
      obtain ⟨t, rest, rfl, starts⟩ := Spells.starts test first
      exact ⟨t, _, rfl, starts⟩
  | .assignment _ target _ _, _, .assignment _ _ first _ => by
      obtain ⟨t, rest, rfl, starts⟩ := Spells.starts target first
      exact ⟨t, _, rfl, starts⟩
  | .call callee _ _, _, .call _ first _ => by
      obtain ⟨t, rest, rfl, starts⟩ := Spells.starts callee first
      exact ⟨t, _, rfl, starts⟩
  | .member owner _ _, _, .member _ _ first => by
      obtain ⟨t, rest, rfl, starts⟩ := Spells.starts owner first
      exact ⟨t, _, rfl, starts⟩
  | .index owner _ _, _, .index _ first _ => by
      obtain ⟨t, rest, rfl, starts⟩ := Spells.starts owner first
      exact ⟨t, _, rfl, starts⟩

/-- A canonical expression of the rank, as it is written. -/
structure Fits (rank : Nat) (e : Expr) (ts : List Token) : Prop where
  tight : rank ≤ e.rank
  canonical : e.isCanonical = true
  spells : Spells e ts

theorem Fits.weaken {rank rank' : Nat} (h : Fits rank e ts) (le : rank' ≤ rank) :
    Fits rank' e ts :=
  ⟨Nat.le_trans le h.tight, h.canonical, h.spells⟩

theorem Fits.nonempty {rank : Nat} (h : Fits rank e ts) : ts ≠ [] := by
  obtain ⟨t, rest, rfl, -⟩ := Spells.starts e h.spells
  exact List.cons_ne_nil t rest

theorem not_tight_binary {op : BinaryOp} {left right : Expr} {pos : Position} {rank : Nat}
    (above : 7 < rank) : ¬ rank ≤ (Expr.binary op left right pos).rank := by
  have loose : op.rank ≤ 7 := op.rank_le
  exact fun tight => absurd (Nat.le_trans tight loose) (Nat.not_le.mpr above)

theorem not_tight_logical {op : LogicalOp} {left right : Expr} {pos : Position} {rank : Nat}
    (above : 3 < rank) : ¬ rank ≤ (Expr.logical op left right pos).rank := by
  have loose : op.rank ≤ 3 := op.rank_le
  exact fun tight => absurd (Nat.le_trans tight loose) (Nat.not_le.mpr above)

theorem ne_rank_binary {op : BinaryOp} {left right : Expr} {pos : Position} {rank : Nat}
    (below : rank < 4) : rank ≠ (Expr.binary op left right pos).rank := by
  have tight : 4 ≤ op.rank := op.le_rank
  exact Nat.ne_of_lt (Nat.lt_of_lt_of_le below tight)

theorem ne_rank_logical {op : LogicalOp} {left right : Expr} {pos : Position} {rank : Nat}
    (below : rank < 2) : rank ≠ (Expr.logical op left right pos).rank := by
  have tight : 2 ≤ op.rank := op.le_rank
  exact Nat.ne_of_lt (Nat.lt_of_lt_of_le below tight)

/-- From the updates behind a target on, no prefix sign stands in front. -/
theorem Fits.startsOperand : ∀ (e : Expr) {ts : List Token}, Fits 9 e ts →
    ∃ t rest, ts = t :: rest ∧ t.startsOperand = true
  | .literal _ _, _, ⟨_, _, .literal value _⟩ => ⟨_, [], rfl, value.startsOperand⟩
  | .name _ _, _, ⟨_, _, .name _ _⟩ => ⟨_, _, rfl, rfl⟩
  | .array _ _, _, ⟨_, _, .array _ _⟩ => ⟨_, _, rfl, rfl⟩
  | .object _ _, _, ⟨_, _, .object _ _⟩ => ⟨_, _, rfl, rfl⟩
  | .grouping _ _, _, ⟨_, _, .grouping _ _⟩ => ⟨_, _, rfl, rfl⟩
  | .unary _ _ _, _, ⟨tight, _, _⟩ => absurd tight (Nat.not_succ_le_self 8)
  | .update _ true _ _, _, ⟨tight, _, _⟩ => absurd tight (Nat.not_succ_le_self 8)
  | .update _ false target _, _, ⟨_, canonical, .updateBehind _ _ first⟩ => by
      simp only [Expr.isCanonical, Bool.and_eq_true] at canonical
      have tight : 9 ≤ target.rank :=
        Nat.le_trans (by decide) (Expr.rank_of_isAssignable canonical.1)
      obtain ⟨t, rest, rfl, starts⟩ := Fits.startsOperand target ⟨tight, canonical.2, first⟩
      exact ⟨t, _, rfl, starts⟩
  | .binary _ _ _ _, _, ⟨tight, _, _⟩ => absurd tight (not_tight_binary (by decide))
  | .logical _ _ _ _, _, ⟨tight, _, _⟩ => absurd tight (not_tight_logical (by decide))
  | .conditional _ _ _ _, _, ⟨tight, _, _⟩ => absurd tight (by simp [Expr.rank])
  | .assignment _ _ _ _, _, ⟨tight, _, _⟩ => absurd tight (by simp [Expr.rank])
  | .call callee _ _, _, ⟨_, canonical, .call _ first _⟩ => by
      simp only [Expr.isCanonical, Bool.and_eq_true, decide_eq_true_eq] at canonical
      obtain ⟨tight, inner, -⟩ := canonical
      obtain ⟨t, rest, rfl, starts⟩ :=
        Fits.startsOperand callee ⟨Nat.le_trans (by decide) tight, inner, first⟩
      exact ⟨t, _, rfl, starts⟩
  | .member owner _ _, _, ⟨_, canonical, .member _ _ first⟩ => by
      simp only [Expr.isCanonical, Bool.and_eq_true, decide_eq_true_eq] at canonical
      obtain ⟨tight, inner⟩ := canonical
      obtain ⟨t, rest, rfl, starts⟩ :=
        Fits.startsOperand owner ⟨Nat.le_trans (by decide) tight, inner, first⟩
      exact ⟨t, _, rfl, starts⟩
  | .index owner _ _, _, ⟨_, canonical, .index _ first _⟩ => by
      simp only [Expr.isCanonical, Bool.and_eq_true, decide_eq_true_eq] at canonical
      obtain ⟨tight, inner, -⟩ := canonical
      obtain ⟨t, rest, rfl, starts⟩ :=
        Fits.startsOperand owner ⟨Nat.le_trans (by decide) tight, inner, first⟩
      exact ⟨t, _, rfl, starts⟩

/-! ### Operators between operands -/

/-- The operators of a rank, each with the way it joins its operands. -/
inductive Operator (rank : Nat) : (Expr → Expr → Expr) → List Token → Prop
  | binary {op : BinaryOp} (pos : Position) : op.rank = rank →
      Operator rank (fun left right => .binary op left right pos) [.mark op.sign]
  | logical {op : LogicalOp} (pos : Position) : op.rank = rank →
      Operator rank (fun left right => .logical op left right pos) [.mark op.sign]

/-- The expressions of a rank are operands of the next one, joined to the left. -/
theorem fits_chain {rank : Nat} (low : 2 ≤ rank) (high : rank ≤ 7) :
    Parser.Chain (Fits (rank + 1)) (Parser.Joined (Operator rank) (Fits (rank + 1)))
      (Fits rank) where
  base h := h.weaken (Nat.le_succ rank)
  more := by
    rintro l ts b us before ⟨join, sign, r, us, spelled, behind, rfl, rfl⟩
    cases spelled with
    | binary pos level =>
        subst level
        refine ⟨Nat.le_refl _, ?_, .binary _ pos before.spells behind.spells⟩
        simp only [Expr.isCanonical, Bool.and_eq_true, decide_eq_true_eq]
        exact ⟨⟨before.tight, behind.tight⟩, before.canonical, behind.canonical⟩
    | logical pos level =>
        subst level
        refine ⟨Nat.le_refl _, ?_, .logical _ pos before.spells behind.spells⟩
        simp only [Expr.isCanonical, Bool.and_eq_true, decide_eq_true_eq]
        exact ⟨⟨before.tight, behind.tight⟩, before.canonical, behind.canonical⟩
  split := by
    intro e ts ⟨tight, canonical, spells⟩
    rcases Nat.lt_or_eq_of_le tight with tighter | level
    · exact Or.inl ⟨tighter, canonical, spells⟩
    · refine Or.inr ?_
      cases spells with
      | @binary left right ts us op pos first second =>
          simp only [Expr.isCanonical, Bool.and_eq_true, decide_eq_true_eq] at canonical
          obtain ⟨⟨leftTight, rightTight⟩, leftCanonical, rightCanonical⟩ := canonical
          change rank = op.rank at level
          subst level
          refine ⟨left, ts, _, ⟨leftTight, leftCanonical, first⟩, ?_, List.cons_ne_nil _ _, rfl⟩
          exact ⟨_, _, right, us, .binary pos rfl, ⟨rightTight, rightCanonical, second⟩, rfl, rfl⟩
      | @logical left right ts us op pos first second =>
          simp only [Expr.isCanonical, Bool.and_eq_true, decide_eq_true_eq] at canonical
          obtain ⟨⟨leftTight, rightTight⟩, leftCanonical, rightCanonical⟩ := canonical
          change rank = op.rank at level
          subst level
          refine ⟨left, ts, _, ⟨leftTight, leftCanonical, first⟩, ?_, List.cons_ne_nil _ _, rfl⟩
          exact ⟨_, _, right, us, .logical pos rfl, ⟨rightTight, rightCanonical, second⟩, rfl, rfl⟩
      | literal | name | array | object | unary | updateBefore | updateBehind | conditional
      | assignment | call | member | index | grouping =>
          simp only [Expr.rank] at level
          omega

inductive Accessed (owner : Expr) : List Token → Expr → Prop
  | call {args : List Expr} {ts : List Token} (pos : Position) :
      Expr.allCanonical args = true → Items Spells false args ts →
      Accessed owner (.mark .lParen :: (ts ++ [.mark .rParen])) (.call owner args pos)
  | member (property : String) (pos : Position) :
      Accessed owner [.mark .dot, .name property] (.member owner property pos)
  | index {key : Expr} {ts : List Token} (pos : Position) : key.isCanonical = true →
      Spells key ts → Accessed owner (.mark .lBracket :: (ts ++ [.mark .rBracket]))
        (.index owner key pos)

theorem accessed_chain : Parser.Chain (Fits 11) Accessed (Fits 10) where
  base h := h.weaken (Nat.le_succ 10)
  more := by
    intro owner ts b us before accessed
    have canonical := before.canonical
    have tight : 10 ≤ owner.rank := before.tight
    cases accessed with
    | call pos all args =>
        refine ⟨Nat.le_refl 10, ?_, .call pos before.spells args⟩
        simp only [Expr.isCanonical, Bool.and_eq_true, decide_eq_true_eq]
        exact ⟨tight, canonical, all⟩
    | member property pos =>
        refine ⟨Nat.le_refl 10, ?_, .member property pos before.spells⟩
        simp only [Expr.isCanonical, Bool.and_eq_true, decide_eq_true_eq]
        exact ⟨tight, canonical⟩
    | index pos keyCanonical key =>
        refine ⟨Nat.le_refl 10, ?_, .index pos before.spells key⟩
        simp only [Expr.isCanonical, Bool.and_eq_true, decide_eq_true_eq]
        exact ⟨tight, canonical, keyCanonical⟩
  split := by
    intro e ts ⟨tight, canonical, spells⟩
    cases spells with
    | call pos first args =>
        simp only [Expr.isCanonical, Bool.and_eq_true, decide_eq_true_eq] at canonical
        obtain ⟨ownerTight, ownerCanonical, all⟩ := canonical
        exact Or.inr ⟨_, _, _, ⟨ownerTight, ownerCanonical, first⟩, .call pos all args,
          List.cons_ne_nil _ _, rfl⟩
    | member property pos first =>
        simp only [Expr.isCanonical, Bool.and_eq_true, decide_eq_true_eq] at canonical
        exact Or.inr ⟨_, _, _, ⟨canonical.1, canonical.2, first⟩, .member property pos,
          List.cons_ne_nil _ _, rfl⟩
    | index pos first key =>
        simp only [Expr.isCanonical, Bool.and_eq_true, decide_eq_true_eq] at canonical
        obtain ⟨ownerTight, ownerCanonical, keyCanonical⟩ := canonical
        exact Or.inr ⟨_, _, _, ⟨ownerTight, ownerCanonical, first⟩, .index pos keyCanonical key,
          List.cons_ne_nil _ _, rfl⟩
    | literal | name | array | object | grouping =>
        exact Or.inl ⟨Nat.le_refl 11, canonical, by constructor <;> assumption⟩
    | binary => exact absurd tight (not_tight_binary (by decide))
    | logical => exact absurd tight (not_tight_logical (by decide))
    | unary | updateBefore | updateBehind | conditional | assignment =>
        exact absurd tight (by simp [Expr.rank])

/-! ### What goes on with an expression -/

/-- The rank at which a mark goes on with an expression, which may end in an update. -/
def Mark.continues? (updated : Bool) : Mark → Option Nat
  | .assign => some 0
  | .plusAssign => some 0
  | .minusAssign => some 0
  | .starAssign => some 0
  | .slashAssign => some 0
  | .question => some 1
  | .orOr => some 2
  | .andAnd => some 3
  | .eqEq => some 4
  | .eqEqEq => some 4
  | .notEq => some 4
  | .notEqEq => some 4
  | .lt => some 5
  | .le => some 5
  | .gt => some 5
  | .ge => some 5
  | .plus => some 6
  | .minus => some 6
  | .star => some 7
  | .slash => some 7
  | .percent => some 7
  | .plusPlus => if updated then none else some 9
  | .minusMinus => if updated then none else some 9
  | .lParen => if updated then none else some 10
  | .dot => if updated then none else some 10
  | .lBracket => if updated then none else some 10
  | _ => none

/-- The rank at which the tokens go on with an expression. A sign that takes a target goes on with
every expression, whether it finds a target there or misses it. -/
def continuation? (updated : Bool) : List Token → Option Nat
  | .mark m :: _ => m.continues? updated
  | _ => none

/-- Nothing of the rank, or tighter, goes on with the expression. -/
def Stops (rank : Nat) (e : Expr) (rest : List Token) : Prop :=
  ∀ r, continuation? e.endsInUpdate rest = some r → r < rank

theorem Stops.weaken {rank rank' : Nat} {rest : List Token} (h : Stops rank e rest)
    (le : rank ≤ rank') : Stops rank' e rest :=
  fun r goesOn => Nat.lt_of_lt_of_le (h r goesOn) le

theorem stops_of_none {rank : Nat} {rest : List Token}
    (none : continuation? e.endsInUpdate rest = none) : Stops rank e rest := by
  intro r goesOn
  rw [none] at goesOn
  cases goesOn

theorem Stops.congr {rank : Nat} {e' : Expr} {rest : List Token} (h : Stops rank e rest)
    (same : e'.endsInUpdate = e.endsInUpdate) : Stops rank e' rest := by
  unfold Stops at *
  rwa [same]

namespace Operator

variable {rank : Nat} {join : Expr → Expr → Expr} {sign : List Token}

theorem continuation? (spelled : Operator rank join sign) (updated : Bool) (rest : List Token) :
    JavaScript.continuation? updated (sign ++ rest) = some rank := by
  cases spelled with
  | @binary op pos level =>
      subst level
      cases op <;> rfl
  | @logical op pos level =>
      subst level
      cases op <;> rfl

theorem stops (spelled : Operator rank join sign) (left : Expr) (rest : List Token) :
    Stops (rank + 1) left (sign ++ rest) := by
  intro r goesOn
  rw [spelled.continuation?] at goesOn
  cases goesOn
  exact Nat.lt_succ_self rank

theorem stops_right (spelled : Operator rank join sign) (l r : Expr) (rest : List Token)
    (stop : Stops (rank + 1) (join l r) rest) : Stops (rank + 1) r rest := by
  refine stop.congr ?_
  cases spelled <;> rfl

theorem not_stops (spelled : Operator rank join sign) (rest : List Token) :
    ¬ Stops rank e (sign ++ rest) := by
  intro stop
  exact absurd (stop rank (spelled.continuation? _ rest)) (Nat.lt_irrefl rank)

end Operator

/-! ### Signs that miss their target -/

namespace Expr

/-- What an assignment sign behind the expression would store to. -/
def assigned : Expr → Expr
  | .conditional _ _ onFalse _ => onFalse.assigned
  | .assignment _ _ value _ => value.assigned
  | e => e

/-- What an update behind the expression would store to. -/
def updated : Expr → Expr
  | .unary _ operand _ => operand.updated
  | .binary _ _ right _ => right.updated
  | .logical _ _ right _ => right.updated
  | .conditional _ _ onFalse _ => onFalse.updated
  | .assignment _ _ value _ => value.updated
  | e => e

theorem assigned_of_tight {e : Expr} (tight : 2 ≤ e.rank) : e.assigned = e := by
  cases e with
  | conditional | assignment => exact absurd tight (by simp [rank])
  | _ => rfl

theorem updated_of_tight {e : Expr} (tight : 10 ≤ e.rank) : e.updated = e := by
  cases e with
  | unary | conditional | assignment => exact absurd tight (by simp [rank])
  | binary op => exact absurd (Nat.le_trans tight op.rank_le) (by decide)
  | logical op => exact absurd (Nat.le_trans tight op.rank_le) (by decide)
  | _ => rfl

theorem tight_of_not_update {e : Expr} (tight : 9 ≤ e.rank) (plain : e.endsInUpdate = false) :
    10 ≤ e.rank := by
  cases e with
  | update op before =>
      cases before with
      | true => exact absurd tight (by simp [rank])
      | false => cases plain
  | unary | conditional | assignment => exact absurd tight (by simp [rank])
  | binary op => exact absurd (Nat.le_trans tight op.rank_le) (by decide)
  | logical op => exact absurd (Nat.le_trans tight op.rank_le) (by decide)
  | _ => simp [rank]

end Expr

/-- An assignment sign follows that finds no target. -/
def MissesAssigned (e : Expr) (rest : List Token) : Prop :=
  e.assigned.isAssignable = false ∧ ∃ op : AssignOp, rest.head? = some (.mark op.sign)

/-- The sign of an update follows that finds no target. Behind another update it is not read. -/
def MissesUpdated (e : Expr) (rest : List Token) : Prop :=
  e.endsInUpdate = false ∧ e.updated.isAssignable = false ∧
    ∃ op : UpdateOp, rest.head? = some (.mark op.sign)

theorem Operator.misses_right {rank : Nat} {join : Expr → Expr → Expr} {sign : List Token}
    (spelled : Operator rank join sign) (l r : Expr) (rest : List Token)
    (misses : MissesUpdated (join l r) rest) : MissesUpdated r rest := by
  cases spelled <;> exact misses

/-- Behind an update only operators with two operands are read. -/
theorem continuation?_updated {rest : List Token} {r : Nat}
    (goesOn : continuation? true rest = some r) : r < 8 := by
  unfold continuation? at goesOn
  split at goesOn
  · next m _ => cases m <;> cases goesOn <;> decide
  · cases goesOn

/-! ### Items -/

section Items

variable {α : Type} {spells : α → List Token → Prop} {trailing : Bool} {items : List α}

theorem items_and {P : α → Prop} :
    Items (fun a ts => P a ∧ spells a ts) trailing items ts ↔
      (∀ a ∈ items, P a) ∧ Items spells trailing items ts := by
  constructor
  · intro h
    induction h with
    | none => exact ⟨nofun, .none⟩
    | last written =>
        exact ⟨fun a member => List.mem_singleton.mp member ▸ written.1, .last written.2⟩
    | more written ends _ ih =>
        obtain ⟨all, rest⟩ := ih
        exact ⟨List.forall_mem_cons.mpr ⟨written.1, all⟩, .more written.2 ends rest⟩
  · rintro ⟨all, h⟩
    induction h with
    | none => exact .none
    | last written => exact .last ⟨all _ List.mem_cons_self, written⟩
    | more written ends _ ih =>
        obtain ⟨first, others⟩ := List.forall_mem_cons.mp all
        exact .more ⟨first, written⟩ ends (ih others)

end Items

theorem allCanonical_iff (es : List Expr) :
    Expr.allCanonical es = true ↔ ∀ e ∈ es, e.isCanonical = true := by
  induction es with
  | nil => simp [Expr.allCanonical]
  | cons e rest ih => rw [Expr.allCanonical, Bool.and_eq_true, ih, List.forall_mem_cons]

theorem propertiesCanonical_iff (es : List (String × Expr)) :
    Expr.propertiesCanonical es = true ↔ ∀ e ∈ es, e.2.isCanonical = true := by
  induction es with
  | nil => simp [Expr.propertiesCanonical]
  | cons e rest ih => rw [Expr.propertiesCanonical, Bool.and_eq_true, ih, List.forall_mem_cons]

theorem bareAll_eq (es : List Expr) : Expr.bareAll es = es.map Expr.bare := by
  induction es with
  | nil => rfl
  | cons e rest ih => rw [Expr.bareAll, ih, List.map_cons]

theorem bareProperties_eq (es : List (String × Expr)) :
    Expr.bareProperties es = es.map fun e => (e.1, e.2.bare) := by
  induction es with
  | nil => rfl
  | cons e rest ih => rw [Expr.bareProperties, ih, List.map_cons]

end Walkthrough.JavaScript
