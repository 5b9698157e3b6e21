import Walkthrough.JikiScript.ExprParser
import Walkthrough.Proofs.Reading

/-! The grammar of JikiScript expressions, and that the reader of expressions reads it. Every
operator has a rank, the tighter the higher; an expression is canonical if each operand is at least
as tight as its place asks for. A canonical expression may be written in several ways, since some
operators have several spellings and brackets may hold line breaks. -/

namespace Walkthrough.JikiScript

def Literal.token : Literal → Token
  | .number x => .number x
  | .text s => .text s
  | .boolean true => .word .trueWord
  | .boolean false => .word .falseWord
  | .null => .word .nullWord

def UnaryOp.spellings : UnaryOp → List Token
  | .negate => [.mark .minus]
  | .not => [.word .notWord, .mark .bang]

def BinaryOp.spellings : BinaryOp → List (List Token)
  | .add => [[.mark .plus]]
  | .subtract => [[.mark .minus]]
  | .multiply => [[.mark .star]]
  | .divide => [[.mark .slash]]
  | .remainder => [[.mark .percent]]
  | .equal => [[.word .isWord], [.word .equalsWord], [.mark .eqEq]]
  | .notEqual =>
    [[.mark .notEq], [.word .notWord, .word .equalsWord], [.word .notWord, .word .isWord]]
  | .less => [[.mark .lt]]
  | .lessEqual => [[.mark .le]]
  | .greater => [[.mark .gt]]
  | .greaterEqual => [[.mark .ge]]

def LogicalOp.keyword : LogicalOp → Keyword
  | .and => .andWord
  | .or => .orWord

def LogicalOp.rank : LogicalOp → Nat
  | .or => 0
  | .and => 1

def BinaryOp.rank : BinaryOp → Nat
  | .equal => 2
  | .notEqual => 2
  | .less => 3
  | .lessEqual => 3
  | .greater => 3
  | .greaterEqual => 3
  | .add => 4
  | .subtract => 4
  | .multiply => 5
  | .divide => 5
  | .remainder => 5

namespace Expr

/-- How tightly the outermost operator binds. -/
def rank : Expr → Nat
  | .logical op _ _ _ => op.rank
  | .binary op _ _ _ => op.rank
  | .unary _ _ _ => 6
  | .index _ _ _ => 7
  | _ => 8

mutual

def bare : Expr → Expr
  | .literal value _ => .literal value {}
  | .name word _ => .name word {}
  | .list elements _ => .list (bareAll elements) {}
  | .dictionary entries _ => .dictionary (bareEntries entries) {}
  | .unary op operand _ => .unary op operand.bare {}
  | .binary op left right _ => .binary op left.bare right.bare {}
  | .logical op left right _ => .logical op left.bare right.bare {}
  | .grouping inner _ => .grouping inner.bare {}
  | .call callee args _ => .call callee (bareAll args) {}
  | .index object key _ => .index object.bare key.bare {}

def bareAll : List Expr → List Expr
  | [] => []
  | e :: rest => e.bare :: bareAll rest

def bareEntries : List (String × Expr) → List (String × Expr)
  | [] => []
  | (key, e) :: rest => (key, e.bare) :: bareEntries rest

end

mutual

/-- Each operand is as tight as its place asks for; operators join to the left. -/
def isCanonical : Expr → Bool
  | .literal _ _ => true
  | .name _ _ => true
  | .list elements _ => allCanonical elements
  | .dictionary entries _ => entriesCanonical entries
  | .unary _ operand _ => decide (6 ≤ operand.rank) && operand.isCanonical
  | .binary op left right _ =>
    decide (op.rank ≤ left.rank) && decide (op.rank + 1 ≤ right.rank) &&
      (left.isCanonical && right.isCanonical)
  | .logical op left right _ =>
    decide (op.rank ≤ left.rank) && decide (op.rank + 1 ≤ right.rank) &&
      (left.isCanonical && right.isCanonical)
  | .grouping inner _ => inner.isCanonical
  | .call _ args _ => allCanonical args
  | .index object key _ => decide (7 ≤ object.rank) && (object.isCanonical && key.isCanonical)

def allCanonical : List Expr → Bool
  | [] => true
  | e :: rest => e.isCanonical && allCanonical rest

def entriesCanonical : List (String × Expr) → Bool
  | [] => true
  | (_, e) :: rest => e.isCanonical && entriesCanonical rest

end

/-- An opening bracket behind the expression would make its last name a call. -/
def endsInName : Expr → Bool
  | .name _ _ => true
  | .unary _ operand _ => operand.endsInName
  | .binary _ _ right _ => right.endsInName
  | .logical _ _ right _ => right.endsInName
  | _ => false

end Expr

/-- Items divided by commas. Next to each comma and behind the last item a gap may stand. -/
inductive Separated {α : Type} (gap : List Token → Prop) (spells : α → List Token → Prop) :
    List α → List Token → Prop
  | one {a : α} {ts behind : List Token} : spells a ts → gap behind →
      Separated gap spells [a] (ts ++ behind)
  | more {a : α} {rest : List α} {ts behind before us : List Token} : spells a ts → gap behind →
      gap before → Separated gap spells rest us →
      Separated gap spells (a :: rest) (ts ++ (behind ++ .mark .comma :: (before ++ us)))

/-- Items divided by commas, and a closing bracket. -/
inductive Enclosed {α : Type} (gap : List Token → Prop) (spells : α → List Token → Prop)
    (closing : Mark) : List α → List Token → Prop
  | none {before : List Token} : gap before →
      Enclosed gap spells closing [] (before ++ [.mark closing])
  | some {items : List α} {before ts : List Token} : gap before →
      Separated gap spells items ts →
      Enclosed gap spells closing items (before ++ (ts ++ [.mark closing]))

/-- A key, a colon and a value, with a gap behind the colon. -/
inductive Entry (gap : List Token → Prop) (spells : Expr → List Token → Prop) :
    String × Expr → List Token → Prop
  | mk {key : String} {e : Expr} {before ts : List Token} : gap before → spells e ts →
      Entry gap spells (key, e) (.text key :: .mark .colon :: (before ++ ts))

/-- How an expression may be written where a gap may stand in brackets. -/
inductive Spells (gap : List Token → Prop) : Expr → List Token → Prop
  | literal (value : Literal) (pos : Position) : Spells gap (.literal value pos) [value.token]
  | name (s : String) (pos : Position) : Spells gap (.name s pos) [.name s]
  | list {elements : List Expr} {ts : List Token} (pos : Position) :
      Enclosed gap (Spells gap) .rBracket elements ts →
      Spells gap (.list elements pos) (.mark .lBracket :: ts)
  | dictionary {entries : List (String × Expr)} {ts : List Token} (pos : Position) :
      Enclosed gap (Entry gap (Spells gap)) .rBrace entries ts →
      Spells gap (.dictionary entries pos) (.mark .lBrace :: ts)
  | unary {op : UnaryOp} {operand : Expr} {t : Token} {ts : List Token} (pos : Position) :
      t ∈ op.spellings → Spells gap operand ts → Spells gap (.unary op operand pos) (t :: ts)
  | binary {op : BinaryOp} {left right : Expr} {sign ts us : List Token} (pos : Position) :
      sign ∈ op.spellings → Spells gap left ts → Spells gap right us →
      Spells gap (.binary op left right pos) (ts ++ (sign ++ us))
  | logical {op : LogicalOp} {left right : Expr} {ts us : List Token} (pos : Position) :
      Spells gap left ts → Spells gap right us →
      Spells gap (.logical op left right pos) (ts ++ ([.word op.keyword] ++ us))
  | grouping {inner : Expr} {ts : List Token} (pos : Position) : Spells gap inner ts →
      Spells gap (.grouping inner pos) (.mark .lParen :: (ts ++ [.mark .rParen]))
  | call {args : List Expr} {ts : List Token} (callee : String) (pos : Position) :
      Enclosed gap (Spells gap) .rParen args ts →
      Spells gap (.call callee args pos) (.name callee :: .mark .lParen :: ts)
  | index {object key : Expr} {ts us : List Token} (pos : Position) : Spells gap object ts →
      Spells gap key us →
      Spells gap (.index object key pos) (ts ++ (.mark .lBracket :: (us ++ [.mark .rBracket])))

/-- A printing: no line breaks, and any spelling of each operator. -/
def Prints : Expr → List Token → Prop :=
  Spells (· = [])

def UnaryOp.spelling : UnaryOp → Token
  | .negate => .mark .minus
  | .not => .word .notWord

def BinaryOp.spelling : BinaryOp → Token
  | .add => .mark .plus
  | .subtract => .mark .minus
  | .multiply => .mark .star
  | .divide => .mark .slash
  | .remainder => .mark .percent
  | .equal => .word .isWord
  | .notEqual => .mark .notEq
  | .less => .mark .lt
  | .lessEqual => .mark .le
  | .greater => .mark .gt
  | .greaterEqual => .mark .ge

def withCommas : List (List Token) → List Token
  | [] => []
  | [ts] => ts
  | ts :: rest => ts ++ (.mark .comma :: withCommas rest)

mutual

/-- The printing that spells each operator with one token. -/
def Expr.print : Expr → List Token
  | .literal value _ => [value.token]
  | .name word _ => [.name word]
  | .list elements _ => .mark .lBracket :: (withCommas (printAll elements) ++ [.mark .rBracket])
  | .dictionary entries _ =>
    .mark .lBrace :: (withCommas (printEntries entries) ++ [.mark .rBrace])
  | .unary op operand _ => op.spelling :: operand.print
  | .binary op left right _ => left.print ++ ([op.spelling] ++ right.print)
  | .logical op left right _ => left.print ++ ([.word op.keyword] ++ right.print)
  | .grouping inner _ => .mark .lParen :: (inner.print ++ [.mark .rParen])
  | .call callee args _ =>
    .name callee :: .mark .lParen :: (withCommas (printAll args) ++ [.mark .rParen])
  | .index object key _ => object.print ++ (.mark .lBracket :: (key.print ++ [.mark .rBracket]))

def Expr.printAll : List Expr → List (List Token)
  | [] => []
  | e :: rest => e.print :: printAll rest

def Expr.printEntries : List (String × Expr) → List (List Token)
  | [] => []
  | (key, e) :: rest => (.text key :: .mark .colon :: e.print) :: printEntries rest

end

theorem enclosed_withCommas {α : Type} {spells : α → List Token → Prop} {closing : Mark}
    {xs : List α} {printings : List (List Token)} (each : List.Forall₂ spells xs printings) :
    Enclosed (· = []) spells closing xs (withCommas printings ++ [.mark closing]) := by
  have separated {a : α} {ts : List Token} {xs : List α} {printings : List (List Token)}
      (first : spells a ts) (each : List.Forall₂ spells xs printings) :
      Separated (· = []) spells (a :: xs) (withCommas (ts :: printings)) := by
    induction each generalizing a ts with
    | nil =>
        have one := @Separated.one _ (· = []) spells a ts [] first rfl
        rwa [List.append_nil] at one
    | cons next _ ih =>
        exact @Separated.more _ (· = []) spells a _ ts [] [] _ first rfl rfl (ih next)
  cases each with
  | nil => exact .none rfl
  | cons first rest => exact @Enclosed.some _ _ _ closing _ [] _ rfl (separated first rest)

mutual

/-- Every expression can be printed. -/
theorem prints_print : ∀ e : Expr, Prints e e.print
  | .literal value pos => .literal value pos
  | .name word pos => .name word pos
  | .list elements pos => .list pos (enclosed_withCommas (prints_printAll elements))
  | .dictionary entries pos => .dictionary pos (enclosed_withCommas (prints_printEntries entries))
  | .unary op operand pos => .unary pos (by cases op <;> decide) (prints_print operand)
  | .binary op left right pos =>
      .binary pos (by cases op <;> decide) (prints_print left) (prints_print right)
  | .logical op left right pos => .logical pos (prints_print left) (prints_print right)
  | .grouping inner pos => .grouping pos (prints_print inner)
  | .call callee args pos => .call callee pos (enclosed_withCommas (prints_printAll args))
  | .index object key pos => .index pos (prints_print object) (prints_print key)

theorem prints_printAll : ∀ es : List Expr,
    List.Forall₂ (Spells (· = [])) es (Expr.printAll es)
  | [] => .nil
  | e :: rest => .cons (prints_print e) (prints_printAll rest)

theorem prints_printEntries : ∀ es : List (String × Expr),
    List.Forall₂ (Entry (· = []) (Spells (· = []))) es (Expr.printEntries es)
  | [] => .nil
  | (key, e) :: rest =>
      .cons (@Entry.mk (· = []) _ key e [] _ rfl (prints_print e)) (prints_printEntries rest)

end

/-- Line breaks and nothing else. -/
def Breaks (ts : List Token) : Prop :=
  ∀ t ∈ ts, t = .newline

theorem breaks_nil : Breaks [] :=
  nofun

/-! ### What an expression begins with -/

namespace Token

/-- A prefix operator begins with the token. -/
def isPrefixSign (t : Token) : Bool :=
  UnaryOp.negate.spellings.contains t || UnaryOp.not.spellings.contains t

/-- What stands by itself begins with the token. -/
def startsOperand : Token → Bool
  | .number _ => true
  | .text _ => true
  | .name _ => true
  | .word k => [.trueWord, .falseWord, .nullWord].contains k
  | .mark m => [.lParen, .lBracket, .lBrace].contains m
  | .newline => false

def starts (t : Token) : Bool :=
  t.startsOperand || t.isPrefixSign

end Token

variable {gap : List Token → Prop} {e : Expr} {ts : List Token}

theorem Literal.startsOperand (value : Literal) : value.token.startsOperand = true := by
  cases value with
  | boolean b => cases b <;> decide
  | number x | text s | null => rfl

theorem UnaryOp.isPrefixSign {op : UnaryOp} {t : Token} (spelled : t ∈ op.spellings) :
    t.isPrefixSign = true := by
  cases op <;> simp_all [Token.isPrefixSign]

theorem Spells.starts : ∀ (e : Expr) {ts : List Token}, Spells gap e ts →
    ∃ t rest, ts = t :: rest ∧ t.starts = true
  | .literal _ _, _, .literal value _ =>
      ⟨value.token, [], rfl, Bool.or_eq_true_iff.mpr (Or.inl value.startsOperand)⟩
  | .name _ _, _, .name _ _ => ⟨_, _, rfl, rfl⟩
  | .list _ _, _, .list _ _ => ⟨_, _, rfl, rfl⟩
  | .dictionary _ _, _, .dictionary _ _ => ⟨_, _, rfl, rfl⟩
  | .grouping _ _, _, .grouping _ _ => ⟨_, _, rfl, rfl⟩
  | .call _ _ _, _, .call _ _ _ => ⟨_, _, rfl, rfl⟩
  | .unary _ _ _, _, .unary _ spelled _ =>
      ⟨_, _, rfl, Bool.or_eq_true_iff.mpr (Or.inr (UnaryOp.isPrefixSign spelled))⟩
  | .binary _ left _ _, _, .binary _ _ first _ => by
      obtain ⟨t, rest, rfl, starts⟩ := Spells.starts left first
      exact ⟨t, _, rfl, starts⟩
  | .logical _ left _ _, _, .logical _ first _ => by
      obtain ⟨t, rest, rfl, starts⟩ := Spells.starts left first
      exact ⟨t, _, rfl, starts⟩
  | .index object _ _, _, .index _ first _ => by
      obtain ⟨t, rest, rfl, starts⟩ := Spells.starts object first
      exact ⟨t, _, rfl, starts⟩

/-- A canonical expression of the rank, as it is written. -/
structure Fits (gap : List Token → Prop) (rank : Nat) (e : Expr) (ts : List Token) : Prop where
  tight : rank ≤ e.rank
  canonical : e.isCanonical = true
  spells : Spells gap e ts

theorem Fits.weaken {rank rank' : Nat} (h : Fits gap rank e ts) (le : rank' ≤ rank) :
    Fits gap rank' e ts :=
  ⟨Nat.le_trans le h.tight, h.canonical, h.spells⟩

theorem Fits.nonempty {rank : Nat} (h : Fits gap rank e ts) : ts ≠ [] := by
  obtain ⟨t, rest, rfl, -⟩ := Spells.starts e h.spells
  exact List.cons_ne_nil t rest

theorem LogicalOp.rank_le (op : LogicalOp) : op.rank ≤ 1 := by
  cases op <;> decide

theorem BinaryOp.rank_le (op : BinaryOp) : op.rank ≤ 5 := by
  cases op <;> decide

/-- From the indices on, no prefix sign stands in front. -/
theorem Fits.startsOperand : ∀ (e : Expr) {ts : List Token}, Fits gap 7 e ts →
    ∃ t rest, ts = t :: rest ∧ t.startsOperand = true
  | .literal _ _, _, ⟨_, _, .literal value _⟩ => ⟨_, [], rfl, value.startsOperand⟩
  | .name _ _, _, ⟨_, _, .name _ _⟩ => ⟨_, _, rfl, rfl⟩
  | .list _ _, _, ⟨_, _, .list _ _⟩ => ⟨_, _, rfl, rfl⟩
  | .dictionary _ _, _, ⟨_, _, .dictionary _ _⟩ => ⟨_, _, rfl, rfl⟩
  | .grouping _ _, _, ⟨_, _, .grouping _ _⟩ => ⟨_, _, rfl, rfl⟩
  | .call _ _ _, _, ⟨_, _, .call _ _ _⟩ => ⟨_, _, rfl, rfl⟩
  | .unary _ _ _, _, ⟨tight, _, _⟩ => absurd tight (Nat.not_succ_le_self 6)
  | .binary op _ _ _, _, ⟨tight, _, _⟩ => by
      have loose : op.rank ≤ 5 := op.rank_le
      exact absurd (Nat.le_trans tight loose) (by decide)
  | .logical op _ _ _, _, ⟨tight, _, _⟩ => by
      have loose : op.rank ≤ 1 := op.rank_le
      exact absurd (Nat.le_trans tight loose) (by decide)
  | .index object _ _, _, ⟨_, canonical, .index _ first _⟩ => by
      simp only [Expr.isCanonical, Bool.and_eq_true, decide_eq_true_eq] at canonical
      obtain ⟨tight, inner, -⟩ := canonical
      obtain ⟨t, rest, rfl, starts⟩ := Fits.startsOperand object ⟨tight, inner, first⟩
      exact ⟨t, _, rfl, starts⟩

/-! ### Operators between operands -/

/-- The operators of a rank, each with the way it joins its operands. -/
inductive Operator (rank : Nat) : (Expr → Expr → Expr) → List Token → Prop
  | binary {op : BinaryOp} {sign : List Token} (pos : Position) : op.rank = rank →
      sign ∈ op.spellings → Operator rank (fun left right => .binary op left right pos) sign
  | logical {op : LogicalOp} (pos : Position) : op.rank = rank →
      Operator rank (fun left right => .logical op left right pos) [.word op.keyword]

theorem BinaryOp.sign_ne_nil {op : BinaryOp} {sign : List Token} (spelled : sign ∈ op.spellings) :
    sign ≠ [] := by
  rintro rfl
  cases op <;> simp [BinaryOp.spellings] at spelled

/-- The expressions of a rank are operands of the next one, joined to the left. -/
theorem fits_chain {rank : Nat} (le : rank ≤ 5) :
    Parser.Chain (Fits gap (rank + 1))
      (Parser.Joined (Operator rank) (Fits gap (rank + 1))) (Fits gap rank) where
  base h := h.weaken (Nat.le_succ rank)
  more := by
    rintro l ts b us before ⟨join, sign, r, us, spelled, behind, rfl, rfl⟩
    cases spelled with
    | binary pos level spelled =>
        subst level
        refine ⟨Nat.le_refl _, ?_, .binary pos spelled before.spells behind.spells⟩
        simp only [Expr.isCanonical, Bool.and_eq_true, decide_eq_true_eq]
        exact ⟨⟨before.tight, behind.tight⟩, before.canonical, behind.canonical⟩
    | logical pos level =>
        subst level
        refine ⟨Nat.le_refl _, ?_, .logical pos before.spells behind.spells⟩
        simp only [Expr.isCanonical, Bool.and_eq_true, decide_eq_true_eq]
        exact ⟨⟨before.tight, behind.tight⟩, before.canonical, behind.canonical⟩
  split := by
    intro e ts ⟨tight, canonical, spells⟩
    rcases Nat.lt_or_eq_of_le tight with tighter | level
    · exact Or.inl ⟨tighter, canonical, spells⟩
    · refine Or.inr ?_
      cases spells with
      | @binary op left right sign ts us pos spelled first second =>
          simp only [Expr.isCanonical, Bool.and_eq_true, decide_eq_true_eq] at canonical
          obtain ⟨⟨leftTight, rightTight⟩, leftCanonical, rightCanonical⟩ := canonical
          change rank = op.rank at level
          subst level
          refine ⟨left, ts, sign ++ us, ⟨leftTight, leftCanonical, first⟩, ?_, ?_, rfl⟩
          · exact ⟨_, sign, right, us, .binary pos rfl spelled,
              ⟨rightTight, rightCanonical, second⟩, rfl, rfl⟩
          · exact List.append_ne_nil_of_left_ne_nil (BinaryOp.sign_ne_nil spelled) us
      | @logical op left right ts us pos first second =>
          simp only [Expr.isCanonical, Bool.and_eq_true, decide_eq_true_eq] at canonical
          obtain ⟨⟨leftTight, rightTight⟩, leftCanonical, rightCanonical⟩ := canonical
          change rank = op.rank at level
          subst level
          refine ⟨left, ts, _, ⟨leftTight, leftCanonical, first⟩, ?_, List.cons_ne_nil _ _, rfl⟩
          exact ⟨_, _, right, us, .logical pos rfl, ⟨rightTight, rightCanonical, second⟩, rfl, rfl⟩
      | literal | name | list | dictionary | unary | grouping | call | index =>
          simp only [Expr.rank] at level
          omega

def Indexed (gap : List Token → Prop) (object : Expr) (us : List Token) (whole : Expr) : Prop :=
  ∃ key ts pos, Expr.isCanonical key = true ∧ Spells gap key ts ∧
    us = .mark .lBracket :: (ts ++ [.mark .rBracket]) ∧ whole = .index object key pos

theorem indexed_chain : Parser.Chain (Fits gap 8) (Indexed gap) (Fits gap 7) where
  base h := h.weaken (Nat.le_succ 7)
  more := by
    rintro object ts b us before ⟨key, us, pos, canonical, written, rfl, rfl⟩
    refine ⟨Nat.le_refl 7, ?_, .index pos before.spells written⟩
    simp only [Expr.isCanonical, Bool.and_eq_true, decide_eq_true_eq]
    exact ⟨before.tight, before.canonical, canonical⟩
  split := by
    intro e ts ⟨tight, canonical, spells⟩
    cases spells with
    | @index object key ts us pos first second =>
        simp only [Expr.isCanonical, Bool.and_eq_true, decide_eq_true_eq] at canonical
        obtain ⟨objectTight, objectCanonical, keyCanonical⟩ := canonical
        refine Or.inr ⟨object, ts, _, ⟨objectTight, objectCanonical, first⟩, ?_,
          List.cons_ne_nil _ _, rfl⟩
        exact ⟨key, us, pos, keyCanonical, second, rfl, rfl⟩
    | literal | name | list | dictionary | grouping | call =>
        exact Or.inl ⟨Nat.le_refl 8, canonical, by constructor <;> assumption⟩
    | unary => exact absurd tight (Nat.not_succ_le_self 6)
    | @binary op =>
        have loose : op.rank ≤ 5 := op.rank_le
        exact absurd (Nat.le_trans tight loose) (by decide)
    | @logical op =>
        have loose : op.rank ≤ 1 := op.rank_le
        exact absurd (Nat.le_trans tight loose) (by decide)

/-! ### What goes on with an expression -/

/-- The rank at which a mark goes on with an expression. An equals sign is read with the equality
operators, and refused. -/
def Mark.continues? (named : Bool) : Mark → Option Nat
  | .eqEq => some 2
  | .notEq => some 2
  | .eq => some 2
  | .lt => some 3
  | .le => some 3
  | .gt => some 3
  | .ge => some 3
  | .plus => some 4
  | .minus => some 4
  | .star => some 5
  | .slash => some 5
  | .percent => some 5
  | .lBracket => some 7
  | .lParen => if named then some 8 else none
  | _ => none

/-- The rank at which the tokens go on with an expression, which may end in a name. -/
def continuation? (named : Bool) : List Token → Option Nat
  | .word .orWord :: _ => some 0
  | .word .andWord :: _ => some 1
  | .word .isWord :: _ => some 2
  | .word .equalsWord :: _ => some 2
  | .word .notWord :: .word .isWord :: _ => some 2
  | .word .notWord :: .word .equalsWord :: _ => some 2
  | .mark m :: _ => m.continues? named
  | _ => none

/-- Nothing of the rank, or tighter, goes on with the expression. -/
def Stops (rank : Nat) (e : Expr) (rest : List Token) : Prop :=
  ∀ r, continuation? e.endsInName rest = some r → r < rank

theorem Stops.weaken {rank rank' : Nat} {rest : List Token} (h : Stops rank e rest)
    (le : rank ≤ rank') : Stops rank' e rest :=
  fun r goesOn => Nat.lt_of_lt_of_le (h r goesOn) le

theorem Operator.continuation? {rank : Nat} {join : Expr → Expr → Expr} {sign : List Token}
    (spelled : Operator rank join sign) (named : Bool) (rest : List Token) :
    continuation? named (sign ++ rest) = some rank := by
  cases spelled with
  | @binary op sign pos level spelled =>
      subst level
      cases op <;> simp only [BinaryOp.spellings, List.mem_cons, List.not_mem_nil, or_false]
        at spelled
      case equal => rcases spelled with rfl | rfl | rfl <;> rfl
      case notEqual => rcases spelled with rfl | rfl | rfl <;> rfl
      all_goals
        subst spelled
        rfl
  | @logical op pos level =>
      subst level
      cases op <;> rfl

theorem Operator.stops {rank : Nat} {join : Expr → Expr → Expr} {sign : List Token}
    (spelled : Operator rank join sign) (left : Expr) (rest : List Token) :
    Stops (rank + 1) left (sign ++ rest) := by
  intro r goesOn
  rw [spelled.continuation?] at goesOn
  cases goesOn
  exact Nat.lt_succ_self rank

theorem Operator.endsInName {rank : Nat} {join : Expr → Expr → Expr} {sign : List Token}
    (spelled : Operator rank join sign) (left right : Expr) :
    (join left right).endsInName = right.endsInName := by
  cases spelled <;> rfl

/-! ### Items in brackets -/

theorem Literal.token_ne_newline (value : Literal) : value.token ≠ .newline := by
  cases value with
  | boolean b => cases b <;> exact nofun
  | number x | text s | null => exact nofun

theorem UnaryOp.sign_ne_newline {op : UnaryOp} {t : Token} (spelled : t ∈ op.spellings) :
    t ≠ .newline := by
  rintro rfl
  cases op <;> simp [UnaryOp.spellings] at spelled

theorem BinaryOp.newline_not_mem {op : BinaryOp} {sign : List Token}
    (spelled : sign ∈ op.spellings) : .newline ∉ sign := by
  intro member
  cases op <;> simp only [BinaryOp.spellings, List.mem_cons, List.not_mem_nil, or_false]
    at spelled <;> rcases spelled with rfl | rfl | rfl <;> simp at member

section Items

variable {α : Type} {spells spells' : α → List Token → Prop} {closing : Mark} {items : List α}

theorem separated_and {P : α → Prop} :
    Separated gap (fun a ts => P a ∧ spells a ts) items ts ↔
      (∀ a ∈ items, P a) ∧ Separated gap spells items ts := by
  constructor
  · intro h
    induction h with
    | one written behind =>
        exact ⟨fun a member => List.mem_singleton.mp member ▸ written.1, .one written.2 behind⟩
    | more written behind before _ ih =>
        obtain ⟨all, rest⟩ := ih
        exact ⟨List.forall_mem_cons.mpr ⟨written.1, all⟩, .more written.2 behind before rest⟩
  · rintro ⟨all, h⟩
    induction h with
    | one written behind => exact .one ⟨all _ List.mem_cons_self, written⟩ behind
    | more written behind before _ ih =>
        obtain ⟨first, others⟩ := List.forall_mem_cons.mp all
        exact .more ⟨first, written⟩ behind before (ih others)

theorem enclosed_and {P : α → Prop} :
    Enclosed gap (fun a ts => P a ∧ spells a ts) closing items ts ↔
      (∀ a ∈ items, P a) ∧ Enclosed gap spells closing items ts := by
  constructor
  · intro h
    cases h with
    | none before => exact ⟨nofun, .none before⟩
    | some before separated =>
        obtain ⟨all, rest⟩ := separated_and.mp separated
        exact ⟨all, .some before rest⟩
  · rintro ⟨all, h⟩
    cases h with
    | none before => exact .none before
    | some before separated => exact .some before (separated_and.mpr ⟨all, separated⟩)

variable {gap' : List Token → Prop} {keep : Token → Bool}
  (gaps : ∀ ts, gap ts → gap' (ts.filter keep)) (keeps : ∀ t, t ≠ .newline → keep t = true)
include gaps keeps

theorem Separated.filter (h : Separated gap spells items ts)
    (each : ∀ a ∈ items, ∀ ts, spells a ts → spells' a (ts.filter keep)) :
    Separated gap' spells' items (ts.filter keep) := by
  induction h with
  | one written behind =>
      rw [List.filter_append]
      exact .one (each _ List.mem_cons_self _ written) (gaps _ behind)
  | more written behind before _ ih =>
      obtain ⟨first, others⟩ := List.forall_mem_cons.mp each
      rw [List.filter_append, List.filter_append,
        List.filter_cons_of_pos (keeps (.mark .comma) nofun), List.filter_append]
      exact .more (first _ written) (gaps _ behind) (gaps _ before) (ih others)

theorem Enclosed.filter (h : Enclosed gap spells closing items ts)
    (each : ∀ a ∈ items, ∀ ts, spells a ts → spells' a (ts.filter keep)) :
    Enclosed gap' spells' closing items (ts.filter keep) := by
  have last : [Token.mark closing].filter keep = [.mark closing] :=
    List.filter_cons_of_pos (keeps (.mark closing) nofun)
  cases h with
  | none before =>
      rw [List.filter_append, last]
      exact .none (gaps _ before)
  | some before separated =>
      rw [List.filter_append, List.filter_append, last]
      exact .some (gaps _ before) (separated.filter gaps keeps each)

end Items

section Filtering

variable {gap' : List Token → Prop} {keep : Token → Bool}

mutual

theorem Spells.filter (gaps : ∀ ts, gap ts → gap' (ts.filter keep))
    (keeps : ∀ t, t ≠ .newline → keep t = true) :
    ∀ (e : Expr) {ts : List Token}, Spells gap e ts →
    Spells gap' e (ts.filter keep)
  | .literal _ _, _, .literal value pos => by
      rw [List.filter_cons_of_pos (keeps _ value.token_ne_newline)]
      exact .literal value pos
  | .name _ _, _, .name s pos => by
      rw [List.filter_cons_of_pos (keeps (.name s) nofun)]
      exact .name s pos
  | .list elements _, _, .list pos enclosed => by
      rw [List.filter_cons_of_pos (keeps (.mark .lBracket) nofun)]
      exact .list pos (enclosed.filter gaps keeps (Spells.filterAll gaps keeps elements))
  | .dictionary entries _, _, .dictionary pos enclosed => by
      rw [List.filter_cons_of_pos (keeps (.mark .lBrace) nofun)]
      refine .dictionary pos (enclosed.filter gaps keeps fun entry member ts written => ?_)
      cases written with
      | @mk key _ _ _ before value =>
          rw [List.filter_cons_of_pos (keeps (.text key) nofun),
            List.filter_cons_of_pos (keeps (.mark .colon) nofun), List.filter_append]
          exact .mk (gaps _ before) (Spells.filterEntries gaps keeps entries _ member _ value)
  | .unary _ operand _, _, .unary pos spelled inner => by
      rw [List.filter_cons_of_pos (keeps _ (UnaryOp.sign_ne_newline spelled))]
      exact .unary pos spelled (Spells.filter gaps keeps operand inner)
  | .binary _ left right _, _, @Spells.binary _ _ _ _ sign _ _ pos spelled first second => by
      have kept : sign.filter keep = sign := List.filter_eq_self.mpr fun t member =>
        keeps t fun newline => BinaryOp.newline_not_mem spelled (newline ▸ member)
      rw [List.filter_append, List.filter_append, kept]
      exact .binary pos spelled (Spells.filter gaps keeps left first)
        (Spells.filter gaps keeps right second)
  | .logical _ left right _, _, @Spells.logical _ op _ _ _ _ pos first second => by
      rw [List.filter_append, List.filter_append,
        List.filter_cons_of_pos (keeps (.word op.keyword) nofun)]
      exact .logical pos (Spells.filter gaps keeps left first)
        (Spells.filter gaps keeps right second)
  | .grouping inner _, _, .grouping pos written => by
      rw [List.filter_cons_of_pos (keeps (.mark .lParen) nofun), List.filter_append,
        List.filter_cons_of_pos (keeps (.mark .rParen) nofun)]
      exact .grouping pos (Spells.filter gaps keeps inner written)
  | .call _ args _, _, .call callee pos enclosed => by
      rw [List.filter_cons_of_pos (keeps (.name callee) nofun),
        List.filter_cons_of_pos (keeps (.mark .lParen) nofun)]
      exact .call callee pos (enclosed.filter gaps keeps (Spells.filterAll gaps keeps args))
  | .index object key _, _, .index pos first second => by
      rw [List.filter_append, List.filter_cons_of_pos (keeps (.mark .lBracket) nofun),
        List.filter_append,
        List.filter_cons_of_pos (keeps (.mark .rBracket) nofun)]
      exact .index pos (Spells.filter gaps keeps object first) (Spells.filter gaps keeps key second)

theorem Spells.filterAll (gaps : ∀ ts, gap ts → gap' (ts.filter keep))
    (keeps : ∀ t, t ≠ .newline → keep t = true) :
    ∀ (es : List Expr), ∀ e ∈ es, ∀ ts, Spells gap e ts →
    Spells gap' e (ts.filter keep)
  | [] => nofun
  | e :: rest => by
      refine List.forall_mem_cons.mpr ⟨fun ts => Spells.filter gaps keeps e, ?_⟩
      exact Spells.filterAll gaps keeps rest

theorem Spells.filterEntries (gaps : ∀ ts, gap ts → gap' (ts.filter keep))
    (keeps : ∀ t, t ≠ .newline → keep t = true) :
    ∀ (es : List (String × Expr)), ∀ e ∈ es, ∀ ts,
    Spells gap e.2 ts → Spells gap' e.2 (ts.filter keep)
  | [] => nofun
  | (_, e) :: rest => by
      refine List.forall_mem_cons.mpr ⟨fun ts => Spells.filter gaps keeps e, ?_⟩
      exact Spells.filterEntries gaps keeps rest

end

end Filtering

/-- Without its line breaks, what is written in any way is a printing. -/
theorem Spells.prints (h : Spells Breaks e ts) : Prints e (ts.filter (· ≠ .newline)) := by
  refine Spells.filter (fun ts breaks => ?_) (fun t other => decide_eq_true other) e h
  exact List.filter_eq_nil_iff.mpr fun t member => by simp [breaks t member]

theorem Prints.spells (h : Prints e ts) : Spells Breaks e ts := by
  have all : Spells Breaks e (ts.filter fun _ => true) := by
    refine Spells.filter ?_ (fun _ _ => rfl) e h
    rintro _ rfl
    exact breaks_nil
  rwa [List.filter_true] at all

theorem allCanonical_iff (es : List Expr) :
    Expr.allCanonical es = true ↔ ∀ e ∈ es, e.isCanonical = true := by
  induction es with
  | nil => simp [Expr.allCanonical]
  | cons e rest ih => rw [Expr.allCanonical, Bool.and_eq_true, ih, List.forall_mem_cons]

theorem entriesCanonical_iff (es : List (String × Expr)) :
    Expr.entriesCanonical es = true ↔ ∀ e ∈ es, e.2.isCanonical = true := by
  induction es with
  | nil => simp [Expr.entriesCanonical]
  | cons e rest ih => rw [Expr.entriesCanonical, Bool.and_eq_true, ih, List.forall_mem_cons]

theorem bareAll_eq (es : List Expr) : Expr.bareAll es = es.map Expr.bare := by
  induction es with
  | nil => rfl
  | cons e rest ih => rw [Expr.bareAll, ih, List.map_cons]

theorem bareEntries_eq (es : List (String × Expr)) :
    Expr.bareEntries es = es.map fun e => (e.1, e.2.bare) := by
  induction es with
  | nil => rfl
  | cons e rest ih => rw [Expr.bareEntries, ih, List.map_cons]

end Walkthrough.JikiScript
