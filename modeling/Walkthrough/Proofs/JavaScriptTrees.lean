import Walkthrough.JavaScript.Parser
import Walkthrough.Proofs.JavaScriptExpressions
import Walkthrough.Proofs.Placing
import Walkthrough.Proofs.TokenPlaces

/-! The trees of JavaScript that are read from tokens. Every node stands where a token stands,
functions are declared at the top level only, what is assigned or updated can be, a constant has a
value, and a loop starts with a declaration or an expression. -/

namespace Walkthrough.JavaScript

open Walkthrough.Parser

namespace Expr

mutual

def inner : Expr → List Expr
  | .literal .. => []
  | .name .. => []
  | .array elements _ => innerAll elements
  | .object properties _ => innerEntries properties
  | .unary _ operand _ => operand :: operand.inner
  | .binary _ left right _ => (left :: left.inner) ++ (right :: right.inner)
  | .logical _ left right _ => (left :: left.inner) ++ (right :: right.inner)
  | .conditional test onTrue onFalse _ =>
    (test :: test.inner) ++ ((onTrue :: onTrue.inner) ++ (onFalse :: onFalse.inner))
  | .assignment _ target value _ => (target :: target.inner) ++ (value :: value.inner)
  | .update _ _ target _ => target :: target.inner
  | .call callee args _ => (callee :: callee.inner) ++ innerAll args
  | .member owner _ _ => owner :: owner.inner
  | .index owner key _ => (owner :: owner.inner) ++ (key :: key.inner)
  | .grouping inner _ => inner :: inner.inner

def innerAll : List Expr → List Expr
  | [] => []
  | e :: rest => (e :: e.inner) ++ innerAll rest

def innerEntries : List (String × Expr) → List Expr
  | [] => []
  | (_, e) :: rest => (e :: e.inner) ++ innerEntries rest

end

def nodes (e : Expr) : List Expr :=
  e :: e.inner

/-- What is assigned or updated is a name, a member or an element. -/
def isSound : Expr → Bool
  | .assignment _ target _ _ => target.isAssignable
  | .update _ _ target _ => target.isAssignable
  | _ => true

/-- The expression itself is sound and stands at a good place. -/
structure Fits (fits : Position → Prop) (e : Expr) : Prop where
  pos : fits e.pos
  sound : e.isSound = true

/-- And so is everything inside it. -/
def Stands (fits : Position → Prop) (e : Expr) : Prop :=
  ∀ node ∈ e.nodes, node.Fits fits

variable {fits : Position → Prop}

theorem Stands.here {e : Expr} (stands : e.Stands fits) : e.Fits fits :=
  stands e List.mem_cons_self

theorem stands_of_inner {e : Expr} (here : fits e.pos) (sound : e.isSound = true)
    (inside : ∀ node ∈ e.inner, node.Fits fits) : e.Stands fits :=
  List.forall_mem_cons.mpr ⟨⟨here, sound⟩, inside⟩

theorem stands_innerAll {es : List Expr} (each : ∀ e ∈ es, e.Stands fits) :
    ∀ node ∈ innerAll es, node.Fits fits := by
  induction es with
  | nil => exact nofun
  | cons e rest ih =>
      obtain ⟨first, others⟩ := List.forall_mem_cons.mp each
      exact List.forall_mem_append.mpr ⟨first, ih others⟩

theorem stands_innerEntries {es : List (String × Expr)} (each : ∀ e ∈ es, e.2.Stands fits) :
    ∀ node ∈ innerEntries es, node.Fits fits := by
  induction es with
  | nil => exact nofun
  | cons e rest ih =>
      obtain ⟨first, others⟩ := List.forall_mem_cons.mp each
      exact List.forall_mem_append.mpr ⟨first, ih others⟩

theorem stands_of_two {e left right : Expr} (two : e.inner = left.nodes ++ right.nodes)
    (here : fits e.pos) (sound : e.isSound = true) (first : left.Stands fits)
    (second : right.Stands fits) : e.Stands fits := by
  apply stands_of_inner here sound
  rw [two]
  exact List.forall_mem_append.mpr ⟨first, second⟩

end Expr

namespace Stmt

mutual

def inner : Stmt → List Stmt
  | .block body _ => innerAll body
  | .conditional _ onTrue onFalse _ =>
    (onTrue :: onTrue.inner) ++ match onFalse with
      | some other => other :: other.inner
      | none => []
  | .whileLoop _ body _ => body :: body.inner
  | .forLoop start _ _ body _ =>
    (match start with
      | some first => first :: first.inner
      | none => []) ++ (body :: body.inner)
  | .forOf _ _ _ body _ => body :: body.inner
  | .function _ _ body _ => innerAll body
  | _ => []

def innerAll : List Stmt → List Stmt
  | [] => []
  | s :: rest => (s :: s.inner) ++ innerAll rest

end

def own : Stmt → List Expr
  | .declare _ _ value _ => value.toList
  | .expression value _ => [value]
  | .conditional test _ _ _ => [test]
  | .whileLoop test _ _ => [test]
  | .forLoop _ test update _ _ => test.toList ++ update.toList
  | .forOf _ _ iterable _ _ => [iterable]
  | .giveBack value _ => value.toList
  | _ => []

/-- What a loop may start with. -/
def startsLoop : Stmt → Bool
  | .declare .. => true
  | .expression .. => true
  | _ => false

/-- A constant has a value, and a loop starts as it may. -/
def isSound : Stmt → Bool
  | .declare .constBinding _ value _ => value.isSome
  | .forLoop start _ _ _ _ => start.all startsLoop
  | _ => true

/-- The statement itself is sound, and it stands at a good place with its expressions. -/
structure Fits (fits : Position → Prop) (s : Stmt) : Prop where
  pos : fits s.pos
  sound : s.isSound = true
  own : ∀ e ∈ s.own, e.Stands fits

/-- So is everything inside the statement, which declares no function; nor does the statement itself
unless it stands at the top level. -/
structure Formed (fits : Position → Prop) (topLevel : Bool) (s : Stmt) : Prop where
  here : s.Fits fits
  plain : topLevel = false → s.function? = none
  inside : ∀ t ∈ s.inner, t.Fits fits ∧ t.function? = none

variable {fits : Position → Prop}

theorem Formed.nodes {s : Stmt} (formed : s.Formed fits false) :
    ∀ t ∈ s :: s.inner, t.Fits fits ∧ t.function? = none :=
  List.forall_mem_cons.mpr ⟨⟨formed.here, formed.plain rfl⟩, formed.inside⟩

theorem formed_innerAll {body : List Stmt} (each : ∀ s ∈ body, s.Formed fits false) :
    ∀ t ∈ innerAll body, t.Fits fits ∧ t.function? = none := by
  induction body with
  | nil => exact nofun
  | cons s rest ih =>
      obtain ⟨first, others⟩ := List.forall_mem_cons.mp each
      exact List.forall_mem_append.mpr ⟨first.nodes, ih others⟩

theorem fits_innerAll {program : List Stmt} (formed : ∀ s ∈ program, s.Formed fits true) :
    ∀ s ∈ innerAll program, s.Fits fits := by
  induction program with
  | nil => exact nofun
  | cons s rest ih =>
      obtain ⟨first, others⟩ := List.forall_mem_cons.mp formed
      refine List.forall_mem_append.mpr ⟨?_, ih others⟩
      exact List.forall_mem_cons.mpr ⟨first.here, fun t inside => (first.inside t inside).1⟩

theorem Fits.formed {s : Stmt} {topLevel : Bool} (h : s.Fits fits) (plain : s.function? = none)
    (inside : s.inner = []) : s.Formed fits topLevel := by
  refine ⟨h, fun _ => plain, ?_⟩
  rw [inside]
  exact nofun

end Stmt

namespace Reader

variable {fits : Position → Prop} {s : Stream Token}

/-- All tokens count. -/
abbrev everywhere (fits : Position → Prop) : Layout Token :=
  ⟨fun _ => True, fits⟩

section Expressions

variable {α : Type} {L : Layout Token}

theorem gives_failMissing (expected : Expected) (Q : α → Prop) :
    Gives L s (failMissing expected) Q :=
  .peek (.fail _)

theorem gives_expect (mark : Mark) (expected : Expected) :
    Gives L s (expect mark expected) fun _ => True := by
  refine .accept (Token.mark mark) (fun _ s' => .give trivial) ?_
  exact gives_failMissing expected _

theorem gives_expectName (expected : Expected) :
    Gives L s (expectName expected) fun _ => True := by
  refine .peek ?_
  split
  · exact .advance fun s' => .give trivial
  · exact gives_failMissing expected _

section Items

variable {item : Reader α} {Q : α → Prop} (items : ∀ s, Gives L s item Q)
include items

theorem gives_commaSeparated (bound : Nat) :
    Gives L s (commaSeparated item bound) fun xs => ∀ x ∈ xs, Q x := by
  induction bound generalizing s with
  | zero => exact .andThen (items s) fun x s' _ good => .give (List.forall_mem_singleton.mpr good)
  | succ bound ih =>
      refine .andThen (items s) fun x s₁ _ good => ?_
      refine .accept (Token.mark .comma) (fun _ s₂ => ?_) ?_
      · exact .andThen ih fun rest s₃ _ others => .give (List.forall_mem_cons.mpr ⟨good, others⟩)
      · exact .give (List.forall_mem_singleton.mpr good)

theorem gives_commaTerminated (closing : Mark) (bound : Nat) :
    Gives L s (commaTerminated item closing bound) fun xs => ∀ x ∈ xs, Q x := by
  induction bound generalizing s with
  | zero =>
      refine .isNext (Token.mark closing) fun closes => ?_
      cases closes with
      | true => exact .give nofun
      | false =>
          exact .andThen (items s) fun x s₁ _ good => .give (List.forall_mem_singleton.mpr good)
  | succ bound ih =>
      refine .isNext (Token.mark closing) fun closes => ?_
      cases closes with
      | true => exact .give nofun
      | false =>
          refine .andThen (items s) fun x s₁ _ good => ?_
          refine .accept (Token.mark .comma) (fun _ s₂ => ?_) ?_
          · exact .andThen ih fun rest s₃ _ others =>
              .give (List.forall_mem_cons.mpr ⟨good, others⟩)
          · exact .give (List.forall_mem_singleton.mpr good)

end Items

variable {inner : Reader Expr} (inside : ∀ s, Gives (everywhere fits) s inner (Expr.Stands fits))
include inside

theorem gives_arguments : Gives (everywhere fits) s (arguments inner) fun args =>
    ∀ e ∈ args, e.Stands fits := by
  refine .isNext (Token.mark .rParen) fun closes => ?_
  have closed {args : List Expr} (s : Stream Token) (good : ∀ e ∈ args, e.Stands fits) :
      Gives (everywhere fits) s (expect .rParen .argumentsEnd >>= fun _ => pure args) fun args =>
        ∀ e ∈ args, e.Stands fits :=
    .andThen (gives_expect _ _) fun _ _ _ _ => .give good
  cases closes with
  | true => exact closed s nofun
  | false =>
      refine .remaining fun bound => ?_
      exact .andThen (gives_commaSeparated inside bound) fun args s₁ _ good => closed s₁ good

theorem gives_property : Gives (everywhere fits) s (property inner) fun e => e.2.Stands fits := by
  have behind (key : String) (s : Stream Token) : Gives (everywhere fits) s (do
      advance
      expect .colon .propertyColon
      return (key, ← inner)) fun e => e.2.Stands fits := by
    refine .advance fun s₁ => .andThen (gives_expect _ _) fun _ s₂ _ _ => ?_
    exact .andThen (inside s₂) fun e s₃ _ stands => .give stands
  refine .peek ?_
  split
  · exact behind _ s
  · exact behind _ s
  · exact .never (gives_failMissing _ _)

theorem gives_primary : Gives (everywhere fits) s (primary inner) (Expr.Stands fits) := by
  have literal (value : Literal) {pos : Position} (here : fits pos) :
      (Expr.literal value pos).Stands fits := Expr.stands_of_inner here rfl nofun
  refine .position fun pos begins => .peek ?_
  split
  · next x next => exact .advance fun s₁ => .give (literal (.number x) (begins _ next trivial))
  · next x next => exact .advance fun s₁ => .give (literal (.text x) (begins _ next trivial))
  · next next => exact .advance fun s₁ => .give (literal (.boolean true) (begins _ next trivial))
  · next next => exact .advance fun s₁ => .give (literal (.boolean false) (begins _ next trivial))
  · next next => exact .advance fun s₁ => .give (literal .null (begins _ next trivial))
  · next next => exact .advance fun s₁ => .give (literal .undefined (begins _ next trivial))
  · next name next =>
      exact .advance fun s₁ => .give (Expr.stands_of_inner (begins _ next trivial) rfl nofun)
  · next next =>
      refine .advance fun s₁ => .andThen (inside s₁) fun e s₂ _ stands => ?_
      refine .andThen (gives_expect _ _) fun _ s₃ _ _ => .give ?_
      exact Expr.stands_of_inner (begins _ next trivial) rfl stands
  · next next =>
      refine .advance fun s₁ => .remaining fun bound => ?_
      refine .andThen (gives_commaTerminated inside _ bound) fun es s₂ _ stand => ?_
      refine .andThen (gives_expect _ _) fun _ s₃ _ _ => .give ?_
      exact Expr.stands_of_inner (begins _ next trivial) rfl (Expr.stands_innerAll stand)
  · next next =>
      refine .advance fun s₁ => .remaining fun bound => ?_
      refine .andThen (gives_commaTerminated (fun _ => gives_property inside) _ bound)
        fun es s₂ _ stand => ?_
      refine .andThen (gives_expect _ _) fun _ s₃ _ _ => .give ?_
      exact Expr.stands_of_inner (begins _ next trivial) rfl (Expr.stands_innerEntries stand)
  · exact gives_failMissing _ _

theorem gives_access? {object : Expr} (stands : object.Stands fits) :
    Gives (everywhere fits) s (access? inner object) fun found =>
      ∀ e ∈ found, e.Stands fits := by
  refine .position fun pos begins => .accept (Token.mark .lParen) (fun _ s₁ => ?_) ?_
  · refine .andThen (gives_arguments inside) fun args s₂ _ each => .give ?_
    rintro _ ⟨⟩
    refine Expr.stands_of_inner stands.here.pos rfl ?_
    exact List.forall_mem_append.mpr ⟨stands, Expr.stands_innerAll each⟩
  refine .accept (Token.mark .dot) (fun next s₁ => ?_) ?_
  · refine .andThen (gives_expectName _) fun name s₂ _ _ => .give ?_
    rintro _ ⟨⟩
    exact Expr.stands_of_inner (begins _ next trivial) rfl stands
  refine .accept (Token.mark .lBracket) (fun next s₁ => ?_) ?_
  · refine .andThen (inside s₁) fun key s₂ _ stands' => ?_
    refine .andThen (gives_expect _ _) fun _ s₃ _ _ => .give ?_
    rintro _ ⟨⟩
    exact Expr.stands_of_two rfl (begins _ next trivial) rfl stands stands'
  · exact .give nofun

theorem gives_accessed : Gives (everywhere fits) s (accessed inner) (Expr.Stands fits) := by
  refine .andThen (gives_primary inside) fun object s₁ _ stands => .remaining fun bound => ?_
  exact gives_chainPostfix (fun object s stands => gives_access? inside stands) bound stands

omit inside in
theorem gives_update (op : UpdateOp) (before : Bool) {target : Expr} {pos : Position}
    (here : fits pos) (stands : target.Stands fits) :
    Gives (everywhere fits) s (do
      if !target.isAssignable then (fail .invalidUpdateTarget : Reader Unit)
      return Expr.update op before target pos) (Expr.Stands fits) := by
  dsimp only
  split
  · exact .never (.fail _)
  · next sound =>
      refine .give (Expr.stands_of_inner here ?_ stands)
      simpa [Expr.isSound] using sound

theorem gives_postfixUpdate :
    Gives (everywhere fits) s (postfixUpdate inner) (Expr.Stands fits) := by
  refine .andThen (gives_accessed inside) fun target s₁ _ stands => ?_
  refine .position fun pos begins => .peek ?_
  split
  · next op found =>
      obtain ⟨t, next, -⟩ := Option.bind_eq_some_iff.mp found
      exact .advance fun s₂ => gives_update op false (begins t next trivial) stands
  · exact .give stands

theorem gives_unary (bound : Nat) :
    Gives (everywhere fits) s (unary inner bound) (Expr.Stands fits) := by
  induction bound generalizing s with
  | zero => exact gives_postfixUpdate inside
  | succ bound ih =>
      refine .position fun pos begins => .peek ?_
      split
      · next op found =>
          obtain ⟨t, next, -⟩ := Option.bind_eq_some_iff.mp found
          refine .advance fun s₁ => .andThen ih fun operand s₂ _ stands => .give ?_
          exact Expr.stands_of_inner (begins t next trivial) rfl stands
      · next op _ found =>
          obtain ⟨t, next, -⟩ := Option.bind_eq_some_iff.mp found
          refine .advance fun s₁ => .andThen ih fun target s₂ _ stands => ?_
          exact gives_update op true (begins t next trivial) stands
      · exact gives_postfixUpdate inside

omit inside

/-- An operator makes an expression that stands at the operator. -/
def JoinsWell (fits : Position → Prop) (found : Option (Expr → Expr → Expr)) : Prop :=
  ∀ join ∈ found, ∀ left right, left.Stands fits → right.Stands fits → (join left right).Stands fits

theorem gives_binaryOp? (ofToken : Token → Option BinaryOp) (s : Stream Token) :
    Gives (everywhere fits) s (binaryOp? ofToken) (JoinsWell fits) := by
  refine .position fun pos begins => .peek ?_
  split
  · next op found =>
      obtain ⟨t, next, -⟩ := Option.bind_eq_some_iff.mp found
      refine .advance fun s₁ => .give ?_
      rintro _ ⟨⟩ left right first second
      exact Expr.stands_of_two rfl (begins t next trivial) rfl first second
  · exact .give nofun

theorem gives_logicalOp? (mark : Mark) (op : LogicalOp) (s : Stream Token) :
    Gives (everywhere fits) s (logicalOp? mark op) (JoinsWell fits) := by
  refine .position fun pos begins => .accept (Token.mark mark) (fun next s₁ => .give ?_) ?_
  · rintro _ ⟨⟩ left right first second
    exact Expr.stands_of_two rfl (begins _ next trivial) rfl first second
  · exact .give nofun

include inside in
theorem gives_disjunction (s : Stream Token) :
    Gives (everywhere fits) s (disjunction inner) (Expr.Stands fits) := by
  have factors := gives_infixLeft (gives_binaryOp? factorOp?) fun s =>
    .remaining fun bound => gives_unary inside bound
  have terms := gives_infixLeft (gives_binaryOp? termOp?) factors
  have comparisons := gives_infixLeft (gives_binaryOp? comparisonOp?) terms
  have equalities := gives_infixLeft (gives_binaryOp? equalityOp?) comparisons
  have conjunctions := gives_infixLeft (gives_logicalOp? .andAnd .and) equalities
  exact gives_infixLeft (gives_logicalOp? .orOr .or) conjunctions s

include inside in
theorem gives_ternary : Gives (everywhere fits) s (ternary inner) (Expr.Stands fits) := by
  refine .andThen (gives_disjunction inside s) fun test s₁ _ stands => ?_
  refine .position fun pos begins => .accept (Token.mark .question) (fun next s₂ => ?_) ?_
  · refine .andThen (inside s₂) fun onTrue s₃ _ stands₁ => ?_
    refine .andThen (gives_expect _ _) fun _ s₄ _ _ => ?_
    refine .andThen (inside s₄) fun onFalse s₅ _ stands₂ => .give ?_
    refine Expr.stands_of_inner (begins _ next trivial) rfl ?_
    exact List.forall_mem_append.mpr ⟨stands, List.forall_mem_append.mpr ⟨stands₁, stands₂⟩⟩
  · exact .give stands

include inside in
theorem gives_assignment : Gives (everywhere fits) s (assignment inner) (Expr.Stands fits) := by
  refine .andThen (gives_ternary inside) fun target s₁ _ stands => ?_
  refine .position fun pos begins => .peek ?_
  split
  · next op found =>
      obtain ⟨t, next, -⟩ := Option.bind_eq_some_iff.mp found
      refine .advance fun s₂ => ?_
      dsimp only
      split
      · exact .never (.fail _)
      · next sound =>
          refine .andThen (inside s₂) fun value s₃ _ stands' => .give ?_
          refine Expr.stands_of_two rfl (begins t next trivial) ?_ stands stands'
          simpa [Expr.isSound] using sound
  · exact .give stands

theorem gives_nested (bound : Nat) (s : Stream Token) :
    Gives (everywhere fits) s (nested bound) (Expr.Stands fits) := by
  induction bound generalizing s with
  | zero => exact gives_failMissing _ _
  | succ bound ih => exact gives_assignment ih

theorem gives_expression : Gives (everywhere fits) s expression (Expr.Stands fits) :=
  .remaining fun bound => gives_nested bound s

theorem begins_expression {e : Expr} {s' : Stream Token} (ran : expression s = .ok e s') :
    ∃ t, s.items.head? = some t := by
  unfold expression at ran
  rw [bind_ok (remaining_apply s)] at ran
  obtain ⟨ts, whole, past⟩ := (nested_readsRank _).reads_whole s ran
  obtain ⟨t, rest, rfl, -⟩ := Spells.starts e whole.2
  exact ⟨t, past.head?⟩

end Expressions

section Statements

variable {L : Layout Token}

theorem gives_terminated {read : Reader Stmt} {Q : Stmt → Prop} (h : Gives L s read Q) :
    Gives L s (terminated read) Q := by
  refine .andThen h fun _ s₁ _ good => ?_
  have ends : Gives L s₁ optionalSemicolon fun _ => True :=
    .accept (Token.mark .semicolon) (fun _ _ => .give trivial) (.give trivial)
  exact .andThen ends fun _ _ _ _ => .give good

/-- A statement that stands at a place where a token stands. -/
abbrev Forms (fits : Position → Prop) (s : Stream Token) (topLevel : Bool)
    (read : Position → Reader Stmt) : Prop :=
  ∀ pos, fits pos → Gives (everywhere fits) s (read pos) (Stmt.Formed fits topLevel)

variable {topLevel : Bool}

theorem gives_declaration (kind : DeclarationKind) (topLevel : Bool) {pos : Position}
    (here : fits pos) : Gives (everywhere fits) s (declaration kind pos) fun t =>
      t.Formed fits topLevel ∧ t.startsLoop = true := by
  refine .andThen (gives_expectName _) fun name s₁ _ _ => ?_
  refine .accept (Token.mark .assign) (fun _ s₂ => ?_) ?_
  · refine .andThen gives_expression fun value s₃ _ stands => .give ⟨?_, rfl⟩
    refine Stmt.Fits.formed ⟨here, ?_, List.forall_mem_singleton.mpr stands⟩ rfl rfl
    cases kind <;> rfl
  · cases kind with
    | letBinding => exact .give ⟨Stmt.Fits.formed ⟨here, rfl, nofun⟩ rfl rfl, rfl⟩
    | constBinding => exact .never (.fail _)

theorem gives_testInParens : Gives (everywhere fits) s testInParens (Expr.Stands fits) := by
  refine .andThen (gives_expect _ _) fun _ s₁ _ _ => ?_
  refine .andThen gives_expression fun test s₂ _ stands => ?_
  exact .andThen (gives_expect _ _) fun _ s₃ _ _ => .give stands

theorem gives_expressionBefore (closing : Mark) :
    Gives (everywhere fits) s (expressionBefore closing) fun found =>
      ∀ e ∈ found, e.Stands fits ∧ ∃ t, s.items.head? = some t := by
  refine .isNext (Token.mark closing) fun closes => ?_
  cases closes with
  | true => exact .give nofun
  | false =>
      refine .andThen gives_expression fun e s₁ ran stands => .give ?_
      rintro _ ⟨⟩
      exact ⟨stands, begins_expression ran⟩

def StartsWell (fits : Position → Prop) (start : Option Stmt) : Prop :=
  ∀ first ∈ start, first.Formed fits false ∧ first.startsLoop = true

theorem gives_forStart : Gives (everywhere fits) s forStart (StartsWell fits) := by
  refine .position fun pos begins => .peek ?_
  split
  · next kind found =>
      obtain ⟨t, next, -⟩ := Option.bind_eq_some_iff.mp found
      refine .advance fun s₁ => ?_
      refine .andThen (gives_declaration kind false (begins t next trivial)) ?_
      refine fun first s₂ _ formed => .give ?_
      rintro _ ⟨⟩
      exact formed
  · refine .andThen (gives_expressionBefore _) fun found s₁ _ good => .give ?_
    rintro _ started
    obtain ⟨e, rfl, rfl⟩ := Option.map_eq_some_iff.mp started
    obtain ⟨stands, t, next⟩ := good e rfl
    have here : fits pos := begins t next trivial
    exact ⟨Stmt.Fits.formed ⟨here, rfl, List.forall_mem_singleton.mpr stands⟩ rfl rfl, rfl⟩

theorem forms_returnStatement : Forms fits s topLevel returnStatement := by
  intro pos here
  have nothing : (Stmt.giveBack none pos).Formed fits topLevel :=
    Stmt.Fits.formed ⟨here, rfl, nofun⟩ rfl rfl
  refine .isNext (Token.mark .semicolon) fun a => .isNext (Token.mark .rBrace) fun b => ?_
  refine .atEnd fun c => .position fun place _ => ?_
  split
  · exact .give nothing
  · refine .andThen gives_expression fun value s₁ _ stands => .give ?_
    exact Stmt.Fits.formed ⟨here, rfl, List.forall_mem_singleton.mpr stands⟩ rfl rfl

section Blocks

variable {inner : Reader Stmt}
  (inside : ∀ s, Gives (everywhere fits) s inner (Stmt.Formed fits false))
include inside

theorem gives_block : Gives (everywhere fits) s (block inner) fun body =>
    ∀ t ∈ Stmt.innerAll body, t.Fits fits ∧ t.function? = none := by
  refine .remaining fun bound => .weaken (Q := fun body => ∀ t ∈ body, t.Formed fits false) ?_
    fun body each => Stmt.formed_innerAll each
  generalize bound + 1 = bound
  induction bound generalizing s with
  | zero => exact gives_failMissing _ _
  | succ bound ih =>
      refine .accept (Token.mark .rBrace) (fun _ s₁ => .give nofun) (.atEnd fun ended => ?_)
      cases ended with
      | true => exact .never (gives_failMissing _ _)
      | false =>
          refine .accept (Token.mark .semicolon) (fun _ s₁ => ih) ?_
          refine .andThen (inside s) fun first s₁ _ formed => ?_
          exact .andThen ih fun rest s₂ _ others =>
            .give (List.forall_mem_cons.mpr ⟨formed, others⟩)

theorem forms_conditional : Forms fits s topLevel (conditional inner) := by
  intro pos here
  refine .andThen gives_testInParens fun test s₁ _ stands => ?_
  refine .andThen (inside s₁) fun onTrue s₂ _ formed => ?_
  have own := List.forall_mem_singleton.mpr stands
  refine .accept (Token.word .elseWord) (fun _ s₃ => ?_) ?_
  · refine .andThen (inside s₃) fun onFalse s₄ _ formed' => .give ?_
    exact ⟨⟨here, rfl, own⟩, fun _ => rfl,
      List.forall_mem_append.mpr ⟨formed.nodes, formed'.nodes⟩⟩
  · exact .give ⟨⟨here, rfl, own⟩, fun _ => rfl, List.forall_mem_append.mpr ⟨formed.nodes, nofun⟩⟩

omit inside in
theorem gives_forOfHeader? : Gives L s forOfHeader? fun _ => True := by
  refine .peek (.peekSecond fun second? => .peekThird fun third? => ?_)
  split
  · exact .advance fun _ => .advance fun _ => .advance fun _ => .give trivial
  · exact .give trivial

omit inside in
theorem formed_forLoop {start : Option Stmt} {test update : Option Expr} {body : Stmt}
    {pos : Position} (here : fits pos) (starts : StartsWell fits start)
    (tests : ∀ e ∈ test, e.Stands fits) (updates : ∀ e ∈ update, e.Stands fits)
    (formed : body.Formed fits false) :
    (Stmt.forLoop start test update body pos).Formed fits topLevel := by
  have own : ∀ e ∈ test.toList ++ update.toList, e.Stands fits := by
    refine List.forall_mem_append.mpr ⟨?_, ?_⟩
    · exact fun e member => tests e (Option.mem_toList.mp member)
    · exact fun e member => updates e (Option.mem_toList.mp member)
  cases start with
  | none => exact ⟨⟨here, rfl, own⟩, fun _ => rfl, formed.nodes⟩
  | some first =>
      obtain ⟨formed', may⟩ := starts first rfl
      exact ⟨⟨here, may, own⟩, fun _ => rfl,
        List.forall_mem_append.mpr ⟨formed'.nodes, formed.nodes⟩⟩

theorem forms_forStatement : Forms fits s topLevel (forStatement inner) := by
  intro pos here
  refine .andThen (gives_expect _ _) fun _ s₁ _ _ => ?_
  refine .andThen gives_forOfHeader? fun header s₂ _ _ => ?_
  cases header with
  | some header =>
      refine .andThen gives_expression fun iterable s₃ _ stands => ?_
      refine .andThen (gives_expect _ _) fun _ s₄ _ _ => ?_
      refine .andThen (inside s₄) fun body s₅ _ formed => .give ?_
      exact ⟨⟨here, rfl, List.forall_mem_singleton.mpr stands⟩, fun _ => rfl, formed.nodes⟩
  | none =>
      refine .andThen gives_forStart fun start s₃ _ starts => ?_
      refine .andThen (gives_expect _ _) fun _ s₄ _ _ => ?_
      refine .andThen (gives_expressionBefore _) fun test s₅ _ tests => ?_
      refine .andThen (gives_expect _ _) fun _ s₆ _ _ => ?_
      refine .andThen (gives_expressionBefore _) fun update s₇ _ updates => ?_
      refine .andThen (gives_expect _ _) fun _ s₈ _ _ => ?_
      refine .andThen (inside s₈) fun body s₉ _ formed => .give ?_
      exact formed_forLoop here starts (fun e found => (tests e found).1)
        (fun e found => (updates e found).1) formed

theorem forms_functionStatement : Forms fits s topLevel (functionStatement inner topLevel) := by
  intro pos here
  refine .andThen (gives_expectName _) fun name s₁ _ _ => ?_
  cases topLevel with
  | false =>
      intro _ made s₂ ended
      cases ended
  | true =>
      refine .andThen (gives_expect _ _) fun _ s₂ _ _ => ?_
      have behind (params : List String) (s : Stream Token) :
          Gives (everywhere fits) s (do
            expect .rParen .parametersEnd
            expect .lBrace .bodyStart
            return .function name params (← block inner) pos) (Stmt.Formed fits true) := by
        refine .andThen (gives_expect _ _) fun _ s₁ _ _ => ?_
        refine .andThen (gives_expect _ _) fun _ s₂ _ _ => ?_
        refine .andThen (gives_block inside) fun body s₃ _ formed => .give ?_
        exact ⟨⟨here, rfl, nofun⟩, nofun, formed⟩
      refine .isNext (Token.mark .rParen) fun closes => ?_
      cases closes with
      | true => exact behind [] s₂
      | false =>
          refine .remaining fun bound => ?_
          refine .andThen (gives_commaSeparated (fun _ => gives_expectName _) bound) ?_
          exact fun params s₃ _ _ => behind params s₃

end Blocks

/-- Where a block of statements may be nested in others, everything in it is formed. -/
theorem gives_statement (bound : Nat) (topLevel : Bool) (s : Stream Token) :
    Gives (everywhere fits) s (statement bound topLevel) (Stmt.Formed fits topLevel) := by
  induction bound generalizing topLevel s with
  | zero => exact gives_failMissing _ _
  | succ bound ih =>
      have inside := ih false
      refine .position fun pos begins => .peek ?_
      have declares (kind : DeclarationKind) (here : fits pos) (s : Stream Token) :
          Gives (everywhere fits) s (terminated (declaration kind pos))
            (Stmt.Formed fits topLevel) :=
        gives_terminated ((gives_declaration kind topLevel here).weaken fun _ formed => formed.1)
      split
      · next next => exact .advance fun s₁ => declares _ (begins _ next trivial) s₁
      · next next => exact .advance fun s₁ => declares _ (begins _ next trivial) s₁
      · next next =>
          refine .advance fun s₁ => .andThen (gives_block inside) fun body s₂ _ formed => .give ?_
          exact ⟨⟨begins _ next trivial, rfl, nofun⟩, fun _ => rfl, formed⟩
      · next next => exact .advance fun s₁ => forms_conditional inside pos (begins _ next trivial)
      · next next =>
          refine .advance fun s₁ => .andThen gives_testInParens fun test s₂ _ stands => ?_
          refine .andThen (inside s₂) fun body s₃ _ formed => .give ?_
          exact ⟨⟨begins _ next trivial, rfl, List.forall_mem_singleton.mpr stands⟩, fun _ => rfl,
            formed.nodes⟩
      · next next => exact .advance fun s₁ => forms_forStatement inside pos (begins _ next trivial)
      · next next =>
          exact .advance fun s₁ => forms_functionStatement inside pos (begins _ next trivial)
      · next next =>
          exact .advance fun s₁ =>
            gives_terminated (forms_returnStatement pos (begins _ next trivial))
      · next next =>
          refine .advance fun s₁ => gives_terminated (.give ?_)
          exact Stmt.Fits.formed ⟨begins _ next trivial, rfl, nofun⟩ rfl rfl
      · next next =>
          refine .advance fun s₁ => gives_terminated (.give ?_)
          exact Stmt.Fits.formed ⟨begins _ next trivial, rfl, nofun⟩ rfl rfl
      · refine gives_terminated (.andThen gives_expression fun value s₁ ran stands => .give ?_)
        obtain ⟨t, next⟩ := begins_expression ran
        exact Stmt.Fits.formed
          ⟨begins t next trivial, rfl, List.forall_mem_singleton.mpr stands⟩ rfl rfl

theorem gives_statements (bound : Nat) : Gives (everywhere fits) s (statements bound) fun program =>
    ∀ t ∈ program, t.Formed fits true := by
  induction bound generalizing s with
  | zero => exact .give nofun
  | succ bound ih =>
      refine .atEnd fun ended => ?_
      cases ended with
      | true => exact .give nofun
      | false =>
          refine .accept (Token.mark .semicolon) (fun _ s₁ => ih) (.remaining fun depth => ?_)
          refine .andThen (gives_statement depth true s) fun first s₁ _ formed => ?_
          exact .andThen ih fun rest s₂ _ others =>
            .give (List.forall_mem_cons.mpr ⟨formed, others⟩)

end Statements
end Reader

/-- Every node of a program stands on a line of its source that is not blank. -/
theorem parse_formed {source : String} {program : Program} (parsed : parse source = .ok program) :
    ∀ s ∈ program, s.Formed (fun place => Text.Shows source place.line) true := by
  unfold parse at parsed
  cases read : tokenize source with
  | error mistake =>
      rw [read] at parsed
      cases parsed
  | ok stream =>
      simp only [read, bind, Except.bind] at parsed
      split at parsed
      · next made s' ended =>
          cases parsed
          have laid :
              stream.LaidOut (Reader.everywhere fun place => Text.Shows source place.line) :=
            fun t member _ => shows_tokenize read t member
          exact (Reader.gives_statements _ laid ended).2
      · cases parsed

end Walkthrough.JavaScript
