import Walkthrough.JikiScript.Parser
import Walkthrough.Proofs.JikiScriptExpressions
import Walkthrough.Proofs.Placing
import Walkthrough.Proofs.TokenPlaces

/-! The trees of JikiScript that are read from tokens. Every node stands where a token stands that
is no line break, functions are declared at the top level only, and an element that is changed is
one of a variable. -/

namespace Walkthrough.JikiScript

open Walkthrough.Parser

namespace Expr

mutual

def inner : Expr → List Expr
  | .literal .. => []
  | .name .. => []
  | .list elements _ => innerAll elements
  | .dictionary entries _ => innerEntries entries
  | .unary _ operand _ => operand :: operand.inner
  | .binary _ left right _ => (left :: left.inner) ++ (right :: right.inner)
  | .logical _ left right _ => (left :: left.inner) ++ (right :: right.inner)
  | .grouping inner _ => inner :: inner.inner
  | .call _ args _ => innerAll args
  | .index object key _ => (object :: object.inner) ++ (key :: key.inner)

def innerAll : List Expr → List Expr
  | [] => []
  | e :: rest => (e :: e.inner) ++ innerAll rest

def innerEntries : List (String × Expr) → List Expr
  | [] => []
  | (_, e) :: rest => (e :: e.inner) ++ innerEntries rest

end

def nodes (e : Expr) : List Expr :=
  e :: e.inner

/-- The variable at the root of a chain of indexes. -/
def root? : Expr → Option String
  | .name root _ => some root
  | .index object _ _ => object.root?
  | _ => none

/-- The expression and everything inside it stands at a good place. -/
def Stands (fits : Position → Prop) (e : Expr) : Prop :=
  ∀ node ∈ e.nodes, fits node.pos

variable {fits : Position → Prop}

theorem stands_of_inner {e : Expr} (here : fits e.pos) (inside : ∀ node ∈ e.inner, fits node.pos) :
    e.Stands fits :=
  List.forall_mem_cons.mpr ⟨here, inside⟩

theorem Stands.pos {e : Expr} (stands : e.Stands fits) : fits e.pos :=
  stands e List.mem_cons_self

theorem stands_innerAll {es : List Expr} (each : ∀ e ∈ es, e.Stands fits) :
    ∀ node ∈ innerAll es, fits node.pos := by
  induction es with
  | nil => exact nofun
  | cons e rest ih =>
      obtain ⟨first, others⟩ := List.forall_mem_cons.mp each
      exact List.forall_mem_append.mpr ⟨first, ih others⟩

theorem stands_innerEntries {es : List (String × Expr)} (each : ∀ e ∈ es, e.2.Stands fits) :
    ∀ node ∈ innerEntries es, fits node.pos := by
  induction es with
  | nil => exact nofun
  | cons e rest ih =>
      obtain ⟨first, others⟩ := List.forall_mem_cons.mp each
      exact List.forall_mem_append.mpr ⟨first, ih others⟩

theorem stands_of_two {e left right : Expr} (two : e.inner = left.nodes ++ right.nodes)
    (here : fits e.pos) (first : left.Stands fits) (second : right.Stands fits) :
    e.Stands fits := by
  apply stands_of_inner here
  rw [two]
  exact List.forall_mem_append.mpr ⟨first, second⟩

end Expr

namespace Stmt

mutual

def inner : Stmt → List Stmt
  | .conditional _ onTrue onFalse _ =>
    innerAll onTrue ++ match onFalse with
      | some body => innerAll body
      | none => []
  | .repeatTimes _ body _ => innerAll body
  | .forEach _ _ body _ => innerAll body
  | .block body _ => innerAll body
  | .function _ _ body _ => innerAll body
  | _ => []

def innerAll : List Stmt → List Stmt
  | [] => []
  | s :: rest => (s :: s.inner) ++ innerAll rest

end

def own : Stmt → List Expr
  | .set _ value _ => [value]
  | .change _ value _ => [value]
  | .changeElement object key value _ => [object, key, value]
  | .log value _ => [value]
  | .conditional condition _ _ _ => [condition]
  | .repeatTimes count _ _ => [count]
  | .forEach _ iterable _ _ => [iterable]
  | .giveBack value _ => value.toList
  | .expression value _ => [value]
  | _ => []

/-- An element that is changed is one of a variable. -/
def isSound : Stmt → Bool
  | .changeElement object _ _ _ => object.root?.isSome
  | _ => true

/-- The statement itself is sound, and it stands at a good place with its expressions. -/
structure Fits (fits : Position → Prop) (s : Stmt) : Prop where
  pos : fits s.pos
  sound : s.isSound = true
  own : ∀ e ∈ s.own, e.Stands fits

/-- So is everything inside the statement, which declares no function; nor does the statement itself
unless it stands at the top level. -/
structure Formed (fits : Position → Prop) (topLevel : Bool) (s : Stmt) : Prop where
  here : s.Fits fits
  plain : topLevel = false → s.function? = none
  inside : ∀ t ∈ s.inner, t.Fits fits ∧ t.function? = none

variable {fits : Position → Prop}

theorem formed_innerAll {body : List Stmt} (each : ∀ s ∈ body, s.Formed fits false) :
    ∀ t ∈ innerAll body, t.Fits fits ∧ t.function? = none := by
  induction body with
  | nil => exact nofun
  | cons s rest ih =>
      obtain ⟨first, others⟩ := List.forall_mem_cons.mp each
      refine List.forall_mem_append.mpr ⟨?_, ih others⟩
      exact List.forall_mem_cons.mpr ⟨⟨first.here, first.plain rfl⟩, first.inside⟩

theorem fits_innerAll {program : List Stmt} (formed : ∀ s ∈ program, s.Formed fits true) :
    ∀ s ∈ innerAll program, s.Fits fits := by
  induction program with
  | nil => exact nofun
  | cons s rest ih =>
      obtain ⟨first, others⟩ := List.forall_mem_cons.mp formed
      refine List.forall_mem_append.mpr ⟨?_, ih others⟩
      exact List.forall_mem_cons.mpr ⟨first.here, fun t inside => (first.inside t inside).1⟩

theorem Fits.formed {s : Stmt} {topLevel : Bool} (h : s.Fits fits) (plain : s.function? = none)
    (inside : s.inner = []) : s.Formed fits topLevel := by
  refine ⟨h, fun _ => plain, ?_⟩
  rw [inside]
  exact nofun

end Stmt

namespace Reader

variable {fits : Position → Prop} {s : Stream Token}

/-- Line breaks do not count. -/
abbrev onLines (fits : Position → Prop) : Layout Token :=
  ⟨(· ≠ .newline), fits⟩

section Expressions

variable {α : Type} {L : Layout Token}

theorem gives_expect (token : Token) (mistake : Mistake) :
    Gives L s (expect token mistake) fun _ => True := by
  refine .accept token (fun _ s' => .give trivial) ?_
  exact .fail mistake

theorem gives_skipNewlines : Gives L s skipNewlines fun _ => True := by
  refine .remaining fun bound => ?_
  induction bound generalizing s with
  | zero => exact .give trivial
  | succ bound ih => exact .accept Token.newline (fun _ s' => ih) (.give trivial)

theorem gives_expectName (mistake : Mistake) :
    Gives L s (expectName mistake) fun _ => True := by
  refine .peek ?_
  split
  · exact .advance fun s' => .give trivial
  · exact .fail mistake

section Items

variable {item : Reader α} {Q : α → Prop} (items : ∀ s, Gives L s item Q)
include items

theorem gives_commaSeparated (bound : Nat) :
    Gives L s (commaSeparated item bound) fun xs => ∀ x ∈ xs, Q x := by
  induction bound generalizing s with
  | zero => exact .andThen (items s) fun x s' _ good => .give (List.forall_mem_singleton.mpr good)
  | succ bound ih =>
      refine .andThen (items s) fun x s₁ _ good => ?_
      refine .andThen gives_skipNewlines fun _ s₂ _ _ => ?_
      refine .accept (Token.mark .comma) (fun _ s₃ => ?_) ?_
      · refine .andThen gives_skipNewlines fun _ s₄ _ _ => ?_
        exact .andThen ih fun rest s₅ _ others => .give (List.forall_mem_cons.mpr ⟨good, others⟩)
      · exact .give (List.forall_mem_singleton.mpr good)

theorem gives_enclosed (closing : Mark) (mistake : Mistake) :
    Gives L s (enclosed item closing mistake) fun xs => ∀ x ∈ xs, Q x := by
  refine .andThen gives_skipNewlines fun _ s₁ _ _ => ?_
  refine .isNext (Token.mark closing) fun closes => ?_
  have closed {xs : List α} (s : Stream Token) (good : ∀ x ∈ xs, Q x) :
      Gives L s (expect (.mark closing) mistake >>= fun _ => pure xs) fun xs => ∀ x ∈ xs, Q x :=
    .andThen (gives_expect _ _) fun _ _ _ _ => .give good
  cases closes with
  | true => exact closed s₁ nofun
  | false =>
      refine .remaining fun bound => ?_
      exact .andThen (gives_commaSeparated items bound) fun xs s₂ _ good => closed s₂ good

end Items

variable {inner : Reader Expr} (inside : ∀ s, Gives (onLines fits) s inner (Expr.Stands fits))
include inside

theorem gives_entry : Gives (onLines fits) s (entry inner) fun e => e.2.Stands fits := by
  refine .peek ?_
  split
  · refine .advance fun s₁ => .andThen (gives_expect _ _) fun _ s₂ _ _ => ?_
    refine .andThen gives_skipNewlines fun _ s₃ _ _ => ?_
    exact .andThen (inside s₃) fun e s₄ _ stands => .give stands
  · exact .fail _

theorem gives_primary : Gives (onLines fits) s (primary inner) (Expr.Stands fits) := by
  have literal (value : Literal) {pos : Position} (here : fits pos) :
      (Expr.literal value pos).Stands fits := Expr.stands_of_inner here (by rintro _ ⟨⟩)
  refine .position fun pos begins => .peek ?_
  split
  · next x next =>
      exact .advance fun s₁ => .give (literal (.number x) (begins _ next (by rintro ⟨⟩)))
  · next x next => exact .advance fun s₁ => .give (literal (.text x) (begins _ next (by rintro ⟨⟩)))
  · next next =>
      exact .advance fun s₁ => .give (literal (.boolean true) (begins _ next (by rintro ⟨⟩)))
  · next next =>
      exact .advance fun s₁ => .give (literal (.boolean false) (begins _ next (by rintro ⟨⟩)))
  · next next => exact .advance fun s₁ => .give (literal .null (begins _ next (by rintro ⟨⟩)))
  · next name next =>
      have here : fits pos := begins _ next (by rintro ⟨⟩)
      refine .advance fun s₁ => .accept (Token.mark .lParen) (fun _ s₂ => ?_) ?_
      · refine .andThen (gives_enclosed inside _ _) fun args s₃ _ stand => .give ?_
        exact Expr.stands_of_inner here (Expr.stands_innerAll stand)
      · exact .give (Expr.stands_of_inner here (by rintro _ ⟨⟩))
  · next next =>
      refine .advance fun s₁ => .andThen (inside s₁) fun e s₂ _ stands => ?_
      refine .andThen (gives_expect _ _) fun _ s₃ _ _ => .give ?_
      exact Expr.stands_of_inner (begins _ next (by rintro ⟨⟩)) stands
  · next next =>
      refine .advance fun s₁ => .andThen (gives_enclosed inside _ _) fun es s₂ _ stand => .give ?_
      exact Expr.stands_of_inner (begins _ next (by rintro ⟨⟩)) (Expr.stands_innerAll stand)
  · next next =>
      refine .advance fun s₁ => ?_
      refine .andThen (gives_enclosed (fun _ => gives_entry inside) _ _) fun es s₂ _ stand => ?_
      exact .give (Expr.stands_of_inner (begins _ next (by rintro ⟨⟩))
        (Expr.stands_innerEntries stand))
  · exact .fail _

theorem gives_indexed : Gives (onLines fits) s (indexed inner) (Expr.Stands fits) := by
  refine .andThen (gives_primary inside) fun object s₁ _ stands => .remaining fun bound => ?_
  refine gives_chainPostfix (fun object s stands => ?_) bound stands
  refine .position fun pos begins => .accept (Token.mark .lBracket) (fun next s₁ => ?_) ?_
  · refine .andThen (inside s₁) fun key s₂ _ stands' => ?_
    refine .andThen (gives_expect _ _) fun _ s₃ _ _ => .give ?_
    rintro _ ⟨⟩
    exact Expr.stands_of_two rfl (begins _ next (by rintro ⟨⟩)) stands stands'
  · exact .give (by rintro _ ⟨⟩)

theorem gives_unary (bound : Nat) :
    Gives (onLines fits) s (unary inner bound) (Expr.Stands fits) := by
  induction bound generalizing s with
  | zero => exact gives_indexed inside
  | succ bound ih =>
      refine .position fun pos begins => .peek ?_
      split
      · next op found =>
          obtain ⟨t, next, operator⟩ := Option.bind_eq_some_iff.mp found
          refine .advance fun s₁ => .andThen ih fun operand s₂ _ stands => .give ?_
          refine Expr.stands_of_inner (begins t next ?_) stands
          rintro rfl
          cases operator
      · exact gives_indexed inside

omit inside

/-- An operator makes an expression that stands at the operator. -/
def JoinsWell (fits : Position → Prop) (found : Option (Expr → Expr → Expr)) : Prop :=
  ∀ join ∈ found, ∀ left right, left.Stands fits → right.Stands fits → (join left right).Stands fits

theorem gives_binaryOp? (ofToken : Token → Option BinaryOp) (other : ofToken .newline = none)
    (s : Stream Token) : Gives (onLines fits) s (binaryOp? ofToken) (JoinsWell fits) := by
  refine .position fun pos begins => .peek ?_
  split
  · next op found =>
      obtain ⟨t, next, operator⟩ := Option.bind_eq_some_iff.mp found
      refine .advance fun s₁ => .give ?_
      rintro _ ⟨⟩ left right first second
      refine Expr.stands_of_two rfl (begins t next ?_) first second
      rintro rfl
      rw [other] at operator
      cases operator
  · exact .give nofun

theorem gives_logicalOp? (keyword : Keyword) (op : LogicalOp) (s : Stream Token) :
    Gives (onLines fits) s (logicalOp? keyword op) (JoinsWell fits) := by
  refine .position fun pos begins => .accept (Token.word keyword) (fun next s₁ => .give ?_) ?_
  · rintro _ ⟨⟩ left right first second
    exact Expr.stands_of_two rfl (begins _ next nofun) first second
  · exact .give nofun

theorem gives_equalityOp? (s : Stream Token) :
    Gives (onLines fits) s equalityOp? (JoinsWell fits) := by
  refine .position fun pos begins => .peek (.peekSecond fun second? => ?_)
  have joins {t : Token} (op : BinaryOp) (next : s.items.head? = some t) (counts : t ≠ .newline) :
      JoinsWell fits (some fun left right => .binary op left right pos) := by
    rintro _ ⟨⟩ left right first second
    exact Expr.stands_of_two rfl (begins t next counts) first second
  split
  · next _ next => exact .advance fun s₁ => .give (joins .equal next nofun)
  · next _ next => exact .advance fun s₁ => .give (joins .equal next nofun)
  · next _ next => exact .advance fun s₁ => .give (joins .equal next nofun)
  · next _ next => exact .advance fun s₁ => .give (joins .notEqual next nofun)
  · next _ _ next => exact .advance fun s₁ => .advance fun s₂ => .give (joins .notEqual next nofun)
  · next _ _ next => exact .advance fun s₁ => .advance fun s₂ => .give (joins .notEqual next nofun)
  · exact .fail _
  · exact .give nofun

theorem gives_nested (bound : Nat) (s : Stream Token) :
    Gives (onLines fits) s (nested bound) (Expr.Stands fits) := by
  induction bound generalizing s with
  | zero => exact .peek (.fail _)
  | succ bound ih =>
      have factors := gives_infixLeft (gives_binaryOp? factorOp? rfl) fun s =>
        .remaining fun bound => gives_unary ih bound
      have terms := gives_infixLeft (gives_binaryOp? termOp? rfl) factors
      have comparisons := gives_infixLeft (gives_binaryOp? comparisonOp? rfl) terms
      have equalities := gives_infixLeft gives_equalityOp? comparisons
      have conjunctions := gives_infixLeft (gives_logicalOp? .andWord .and) equalities
      exact gives_infixLeft (gives_logicalOp? .orWord .or) conjunctions s

theorem gives_expression : Gives (onLines fits) s expression (Expr.Stands fits) :=
  .remaining fun bound => gives_nested bound s

theorem begins_expression {e : Expr} {s' : Stream Token} (ran : expression s = .ok e s') :
    ∃ t, s.items.head? = some t ∧ t ≠ .newline := by
  unfold expression at ran
  rw [bind_ok (remaining_apply s)] at ran
  obtain ⟨ts, fits, past⟩ := (nested_readsRank _).sound s ran
  obtain ⟨t, rest, rfl, starts⟩ := Spells.starts e fits.spells
  refine ⟨t, past.head?, ?_⟩
  rintro rfl
  exact absurd starts (by decide)

end Expressions

section Statements

variable {L : Layout Token}

theorem gives_endOfLine : Gives L s endOfLine fun _ => True := by
  refine .accept Token.newline (fun _ s₁ => .give trivial) (.atEnd fun ended => ?_)
  cases ended with
  | true => exact .give trivial
  | false => exact .seen (a := s) rfl (.fail _)

theorem gives_variableName (missing : Mistake) :
    Gives L s (variableName missing) fun _ => ∃ t, s.items.head? = some t ∧ t ≠ .newline := by
  refine .peek ?_
  split
  · exact .fail _
  · next first next =>
      refine .advance fun s₁ => .peek ?_
      split
      · exact .fail _
      · exact .give ⟨_, next, by rintro ⟨⟩⟩
  · exact .fail _

theorem gives_expectTo (name : String) : Gives L s (expectTo name) fun _ => True := by
  refine .isNext (Token.mark .eq) fun found => ?_
  cases found with
  | true => exact .never (.fail _)
  | false => exact gives_expect _ _

theorem gives_expectDo (block : BlockKind) : Gives L s (expectDo block) fun _ => True :=
  .andThen (gives_expect _ _) fun _ _ _ _ => gives_endOfLine

theorem gives_indexes (bound : Nat) :
    Gives (onLines fits) s (indexes bound) fun keys => ∀ key ∈ keys, key.Stands fits := by
  induction bound generalizing s with
  | zero => exact .give nofun
  | succ bound ih =>
      refine .accept (Token.mark .lBracket) (fun _ s₁ => ?_) (.give nofun)
      refine .andThen gives_expression fun key s₂ _ stands => ?_
      refine .andThen (gives_expect _ _) fun _ s₃ _ _ => ?_
      exact .andThen ih fun keys s₄ _ others => .give (List.forall_mem_cons.mpr ⟨stands, others⟩)

/-- A chain of indexes stands where its parts stand, and has the root that it began with. -/
theorem indexChain_sound {object : Expr} (keys : List Expr) (stands : object.Stands fits)
    (each : ∀ key ∈ keys, key.Stands fits) :
    (indexChain object keys).Stands fits ∧ (indexChain object keys).root? = object.root? := by
  induction keys generalizing object with
  | nil => exact ⟨stands, rfl⟩
  | cons key rest ih =>
      obtain ⟨first, others⟩ := List.forall_mem_cons.mp each
      exact ih (Expr.stands_of_two rfl first.pos stands first) others

/-- A statement that stands at a place where a token counts. -/
abbrev Forms (fits : Position → Prop) (s : Stream Token) (topLevel : Bool)
    (read : Position → Reader Stmt) : Prop :=
  ∀ pos, fits pos → Gives (onLines fits) s (read pos) (Stmt.Formed fits topLevel)

variable {topLevel : Bool}

theorem forms_setStatement : Forms fits s topLevel setStatement := by
  intro pos here
  refine .andThen (gives_variableName _) fun name s₁ _ _ => ?_
  refine .andThen (gives_expectTo name) fun _ s₂ _ _ => ?_
  refine .andThen gives_expression fun value s₃ _ stands => .give ?_
  exact Stmt.Fits.formed ⟨here, rfl, List.forall_mem_singleton.mpr stands⟩ rfl rfl

theorem forms_changeStatement : Forms fits s topLevel changeStatement := by
  intro pos here
  refine .position fun namePos begins => ?_
  refine .andThen (gives_variableName _) fun name s₁ _ named => .remaining fun bound => ?_
  refine .andThen (gives_indexes bound) fun keys s₂ _ each => ?_
  refine .andThen (gives_expectTo name) fun _ s₃ _ _ => ?_
  refine .andThen gives_expression fun value s₄ _ stands => ?_
  cases last : keys.getLast? with
  | none =>
      exact .give (Stmt.Fits.formed ⟨here, rfl, List.forall_mem_singleton.mpr stands⟩ rfl rfl)
  | some key =>
      obtain ⟨t, next, counts⟩ := named
      have root : (Expr.name name namePos).Stands fits :=
        Expr.stands_of_inner (begins t next counts) nofun
      obtain ⟨object, rooted⟩ := indexChain_sound keys.dropLast root fun k member =>
        each k (List.dropLast_subset keys member)
      refine .give (Stmt.Fits.formed ⟨here, ?_, ?_⟩ rfl rfl)
      · change (indexChain _ _).root?.isSome = true
        rw [rooted]
        rfl
      · refine List.forall_mem_cons.mpr ⟨object, List.forall_mem_cons.mpr ⟨?_, ?_⟩⟩
        · exact each key (List.mem_of_getLast? last)
        · exact List.forall_mem_singleton.mpr stands

theorem forms_returnStatement : Forms fits s topLevel returnStatement := by
  intro pos here
  refine .isNext Token.newline fun found => ?_
  cases found with
  | true => exact .give (Stmt.Fits.formed ⟨here, rfl, nofun⟩ rfl rfl)
  | false =>
      refine .andThen gives_expression fun value s₁ _ stands => .give ?_
      exact Stmt.Fits.formed ⟨here, rfl, List.forall_mem_singleton.mpr stands⟩ rfl rfl

theorem gives_onOneLine {read : Reader Stmt} {Q : Stmt → Prop} (h : Gives L s read Q) :
    Gives L s (onOneLine read) Q :=
  .andThen h fun _ _ _ good => .andThen gives_endOfLine fun _ _ _ _ => .give good

section Blocks

variable {inner : Reader Stmt}
  (inside : ∀ s, Gives (onLines fits) s inner (Stmt.Formed fits false))
include inside

theorem gives_block (kind : BlockKind) : Gives (onLines fits) s (block inner kind) fun body =>
    ∀ t ∈ Stmt.innerAll body, t.Fits fits ∧ t.function? = none := by
  refine .remaining fun bound => .weaken (Q := fun body => ∀ t ∈ body, t.Formed fits false) ?_
    fun body each => Stmt.formed_innerAll each
  generalize bound + 1 = bound
  induction bound generalizing s with
  | zero => exact .fail _
  | succ bound ih =>
      refine .andThen gives_skipNewlines fun _ s₁ _ _ => .peek ?_
      split
      · exact .advance fun s₂ => .give nofun
      · exact .fail _
      · split
        · exact .give nofun
        · refine .andThen (inside s₁) fun first s₂ _ formed => ?_
          exact .andThen ih fun rest s₃ _ others =>
            .give (List.forall_mem_cons.mpr ⟨formed, others⟩)

theorem forms_conditional (bound : Nat) : Forms fits s topLevel (conditional inner bound) := by
  intro pos here
  induction bound generalizing s pos topLevel with
  | zero => exact .peek (.fail _)
  | succ bound ih =>
      refine .andThen gives_expression fun condition s₁ _ stands => ?_
      refine .andThen (gives_expectDo _) fun _ s₂ _ _ => ?_
      refine .andThen (gives_block inside _) fun onTrue s₃ _ formed => ?_
      have made {onFalse : Option (List Stmt)} (other : ∀ body ∈ onFalse,
          ∀ t ∈ Stmt.innerAll body, t.Fits fits ∧ t.function? = none) :
          (Stmt.conditional condition onTrue onFalse pos).Formed fits topLevel := by
        refine ⟨⟨here, rfl, List.forall_mem_singleton.mpr stands⟩, fun _ => rfl, ?_⟩
        cases onFalse with
        | none => exact List.forall_mem_append.mpr ⟨formed, nofun⟩
        | some body => exact List.forall_mem_append.mpr ⟨formed, other body rfl⟩
      refine .accept (Token.word .elseWord) (fun _ s₄ => ?_) ?_
      · refine .position fun elsePos begins => ?_
        refine .accept (Token.word .ifWord) (fun next s₅ => ?_) ?_
        · have further : Gives (onLines fits) s₅ (conditional inner bound elsePos)
              (Stmt.Formed fits false) := ih elsePos (begins _ next nofun)
          refine .andThen further fun chained s₆ _ formed' => ?_
          refine .give (made ?_)
          rintro _ ⟨⟩
          exact Stmt.formed_innerAll (List.forall_mem_singleton.mpr formed')
        · refine .andThen (gives_expectDo _) fun _ s₅ _ _ => ?_
          refine .andThen (gives_block inside _) fun onFalse s₆ _ formed' => ?_
          refine .isNext (Token.word .elseWord) fun again => ?_
          cases again with
          | true => exact .never (.fail _)
          | false =>
              refine .andThen gives_endOfLine fun _ s₇ _ _ => .give (made ?_)
              rintro _ ⟨⟩
              exact formed'
      · refine .andThen gives_endOfLine fun _ s₄ _ _ => .give (made nofun)

theorem forms_repeatStatement : Forms fits s topLevel (repeatStatement inner) := by
  intro pos here
  refine .andThen gives_expression fun count s₁ _ stands => ?_
  refine .andThen (gives_expect _ _) fun _ s₂ _ _ => ?_
  refine .andThen (gives_expectDo _) fun _ s₃ _ _ => ?_
  refine .andThen (gives_block inside _) fun body s₄ _ formed => ?_
  refine .andThen gives_endOfLine fun _ s₅ _ _ => .give ?_
  exact ⟨⟨here, rfl, List.forall_mem_singleton.mpr stands⟩, fun _ => rfl, formed⟩

theorem forms_forEachStatement : Forms fits s topLevel (forEachStatement inner) := by
  intro pos here
  refine .andThen (gives_expect _ _) fun _ s₁ _ _ => ?_
  refine .andThen (gives_expectName _) fun element s₂ _ _ => ?_
  refine .andThen (gives_expect _ _) fun _ s₃ _ _ => ?_
  refine .andThen gives_expression fun iterable s₄ _ stands => ?_
  refine .andThen (gives_expectDo _) fun _ s₅ _ _ => ?_
  refine .andThen (gives_block inside _) fun body s₆ _ formed => ?_
  refine .andThen gives_endOfLine fun _ s₇ _ _ => .give ?_
  exact ⟨⟨here, rfl, List.forall_mem_singleton.mpr stands⟩, fun _ => rfl, formed⟩

theorem forms_plainBlock : Forms fits s topLevel (plainBlock inner) := by
  intro pos here
  refine .andThen gives_endOfLine fun _ s₁ _ _ => ?_
  refine .andThen (gives_block inside _) fun body s₂ _ formed => ?_
  refine .andThen gives_endOfLine fun _ s₃ _ _ => .give ?_
  exact ⟨⟨here, rfl, nofun⟩, fun _ => rfl, formed⟩

omit inside in
theorem gives_parameters (bound : Nat) : Gives L s (parameters bound) fun _ => True := by
  induction bound generalizing s with
  | zero => exact .andThen (gives_expectName _) fun _ _ _ _ => .give trivial
  | succ bound ih =>
      refine .andThen (gives_expectName _) fun first s₁ _ _ => ?_
      refine .accept (Token.mark .comma) (fun _ s₂ => ?_) (.peek ?_)
      · exact .andThen ih fun _ _ _ _ => .give trivial
      · split
        · exact .fail _
        · exact .give trivial

theorem forms_functionStatement : Forms fits s topLevel (functionStatement inner topLevel) := by
  intro pos here
  refine .andThen (gives_expectName _) fun name s₁ _ _ => ?_
  cases topLevel with
  | false =>
      intro _ made s₂ ended
      cases ended
  | true =>
      have behind (params : List String) (s : Stream Token) :
          Gives (onLines fits) s (do
            expectDo .functionBody
            let body ← block inner .functionBody
            endOfLine
            return .function name params body pos) (Stmt.Formed fits true) := by
        refine .andThen (gives_expectDo _) fun _ s₁ _ _ => ?_
        refine .andThen (gives_block inside _) fun body s₂ _ formed => ?_
        refine .andThen gives_endOfLine fun _ s₃ _ _ => .give ?_
        exact ⟨⟨here, rfl, nofun⟩, nofun, formed⟩
      refine .accept (Token.word .withWord) (fun _ s₂ => ?_) ?_
      · refine .isNext (Token.word .doWord) fun _ => .isNext Token.newline fun _ => ?_
        refine .remaining fun bound => .andThen (gives_parameters bound) fun params s₃ _ _ => ?_
        exact behind params s₃
      · refine .isNext (Token.word .doWord) fun _ => .isNext Token.newline fun _ => ?_
        dsimp only
        rw [if_neg Bool.false_ne_true]
        split
        · exact behind [] s₁
        · exact .never (.fail _)

end Blocks

theorem gives_statement (bound : Nat) (topLevel : Bool) (s : Stream Token) :
    Gives (onLines fits) s (statement bound topLevel) (Stmt.Formed fits topLevel) := by
  induction bound generalizing topLevel s with
  | zero => exact .peek (.fail _)
  | succ bound ih =>
      have inside := ih false
      refine .position fun pos begins => .peek ?_
      split
      · next next =>
          exact .advance fun s₁ => gives_onOneLine (forms_setStatement pos (begins _ next nofun))
      · next next =>
          exact .advance fun s₁ => gives_onOneLine (forms_changeStatement pos (begins _ next nofun))
      · next next =>
          refine .advance fun s₁ => gives_onOneLine ?_
          refine .andThen gives_expression fun value s₂ _ stands => .give ?_
          exact Stmt.Fits.formed
            ⟨begins _ next nofun, rfl, List.forall_mem_singleton.mpr stands⟩ rfl rfl
      · next next =>
          refine .advance fun s₁ => .remaining fun bound => ?_
          exact forms_conditional inside (bound + 1) pos (begins _ next nofun)
      · next next => exact .advance fun s₁ => forms_repeatStatement inside pos (begins _ next nofun)
      · next next =>
          exact .advance fun s₁ => forms_forEachStatement inside pos (begins _ next nofun)
      · next next => exact .advance fun s₁ => forms_plainBlock inside pos (begins _ next nofun)
      · next next =>
          exact .advance fun s₁ => forms_functionStatement inside pos (begins _ next nofun)
      · next next =>
          exact .advance fun s₁ => gives_onOneLine (forms_returnStatement pos (begins _ next nofun))
      · next next =>
          refine .advance fun s₁ => gives_onOneLine (.give ?_)
          exact Stmt.Fits.formed ⟨begins _ next nofun, rfl, nofun⟩ rfl rfl
      · next next =>
          refine .advance fun s₁ => gives_onOneLine (.give ?_)
          exact Stmt.Fits.formed ⟨begins _ next nofun, rfl, nofun⟩ rfl rfl
      · next next =>
          refine .advance fun s₁ => gives_onOneLine (.give ?_)
          exact Stmt.Fits.formed ⟨begins _ next nofun, rfl, nofun⟩ rfl rfl
      · refine gives_onOneLine (.andThen gives_expression fun value s₁ ran stands => .give ?_)
        obtain ⟨t, next, counts⟩ := begins_expression ran
        exact Stmt.Fits.formed
          ⟨begins t next counts, rfl, List.forall_mem_singleton.mpr stands⟩ rfl rfl

theorem gives_statements (bound : Nat) : Gives (onLines fits) s (statements bound) fun program =>
    ∀ t ∈ program, t.Formed fits true := by
  induction bound generalizing s with
  | zero => exact .give nofun
  | succ bound ih =>
      refine .atEnd fun ended => ?_
      cases ended with
      | true => exact .give nofun
      | false =>
          refine .accept Token.newline (fun _ s₁ => ih) (.remaining fun depth => ?_)
          refine .andThen (gives_statement depth true s) fun first s₁ _ formed => ?_
          exact .andThen ih fun rest s₂ _ others =>
            .give (List.forall_mem_cons.mpr ⟨formed, others⟩)

end Statements
end Reader

/-- Every node of a program stands on a line of its source that is not blank. -/
theorem parse_formed {source : String} {program : Program} (parsed : parse source = .ok program) :
    ∀ s ∈ program, s.Formed (fun place => Text.Shows source place.line) true := by
  unfold parse at parsed
  cases read : tokenize source with
  | error mistake =>
      rw [read] at parsed
      cases parsed
  | ok stream =>
      simp only [read, bind, Except.bind] at parsed
      split at parsed
      · next made s' ended =>
          cases parsed
          have laid : stream.LaidOut (Reader.onLines fun place => Text.Shows source place.line) :=
            shows_tokenize read
          exact (Reader.gives_statements _ laid ended).2
      · cases parsed

end Walkthrough.JikiScript
