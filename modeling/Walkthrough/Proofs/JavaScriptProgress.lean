import Walkthrough.JavaScript.Parser
import Walkthrough.Proofs.JikiScriptProgress

/-! The readers of JavaScript get on, in the same way. Where the source ends in an open bracket of a
list, it is the next item that is missing, as behind a comma. -/

namespace Walkthrough

open Walkthrough.Parser

namespace JavaScript
namespace Reader

variable {α : Type} {s : Stream Token} {n : Nat}

/-! ### Rounds -/

def commaRound (item : Reader α) (rest : Unit → Reader (List α)) (_ : Unit) : Reader (List α) := do
  let first ← item
  if ← accept (.mark .comma) then return first :: (← rest ())
  else return [first]

/-- An item and the comma behind it, unless the list ends. -/
def terminatedRound (item : Reader α) (closing : Mark) (rest : Unit → Reader (List α)) (_ : Unit) :
    Reader (List α) := do
  if ← isNext (.mark closing) then return []
  let first ← item
  if ← accept (.mark .comma) then return first :: (← rest ())
  else return [first]

/-- One prefix operator or one update in front of its target. -/
def unaryRound (inner : Reader Expr) (rest : Unit → Reader Expr) (_ : Unit) : Reader Expr := do
  let pos ← position
  let found ← peek?
  match found.bind unaryOp?, found.bind updateOp? with
  | some op, _ =>
    advance
    return .unary op (← rest ()) pos
  | none, some op =>
    advance
    let target ← rest ()
    if !target.isAssignable then fail .invalidUpdateTarget
    return .update op true target pos
  | none, none => postfixUpdate inner

/-- An expression, up to the expressions behind assignment signs, in branches and in brackets. -/
def expressionRound (rest : Unit → Reader Expr) (_ : Unit) : Reader Expr :=
  assignment (rest ())

/-- One statement of a block, or one semicolon. -/
def blockRound (inner : Reader Stmt) (rest : Unit → Reader (List Stmt)) (_ : Unit) :
    Reader (List Stmt) := do
  if ← accept (.mark .rBrace) then return []
  if ← atEnd then failMissing .blockEnd
  if ← accept (.mark .semicolon) then rest ()
  else
    let first ← inner
    return first :: (← rest ())

def statementRound (rest : Bool → Reader Stmt) (topLevel : Bool) : Reader Stmt := do
  let inner := rest false
  let pos ← position
  match ← peek? with
  | some (.word .letWord) =>
    advance
    terminated (declaration .letBinding pos)
  | some (.word .constWord) =>
    advance
    terminated (declaration .constBinding pos)
  | some (.mark .lBrace) =>
    advance
    return .block (← block inner) pos
  | some (.word .ifWord) =>
    advance
    conditional inner pos
  | some (.word .whileWord) =>
    advance
    let test ← testInParens
    return .whileLoop test (← inner) pos
  | some (.word .forWord) =>
    advance
    forStatement inner pos
  | some (.word .functionWord) =>
    advance
    functionStatement inner topLevel pos
  | some (.word .returnWord) =>
    advance
    terminated (returnStatement pos)
  | some (.word .breakWord) =>
    advance
    terminated (pure (.leaveLoop pos))
  | some (.word .continueWord) =>
    advance
    terminated (pure (.nextIteration pos))
  | _ => terminated (do return .expression (← expression) pos)

def statementsRound (rest : Unit → Reader Program) (_ : Unit) : Reader Program := do
  if ← atEnd then return []
  if ← accept (.mark .semicolon) then rest ()
  else
    let first ← statement (← remaining) true
    return first :: (← rest ())

/-! ### Items -/

theorem agree_failMissing (expected : Expected) {Q : α → Nat → Prop} :
    Agree s (failMissing expected) (failMissing expected) Q :=
  .peek fun _ _ => .fail _

theorem agree_expect (mark : Mark) (expected : Expected) :
    Agree s (expect mark expected) (expect mark expected) (Shorter s) := by
  refine .accept (Token.mark mark) (fun s' shorter => .give shorter) ?_
  exact agree_failMissing expected

theorem agree_expectName (expected : Expected) :
    Agree s (expectName expected) (expectName expected) (Shorter s) := by
  refine .peek fun t? next => ?_
  split
  · exact .advance next fun s' shorter => .give shorter
  · exact agree_failMissing expected

section Items

variable {item item' : Reader α}

theorem agree_commaRound {rest rest' : Unit → Reader (List α)}
    (items : Agree s item item' (Shorter s))
    (goes : Alike Fewer s.ahead.length (rest ()) (rest' ())) :
    Agree s (commaRound item rest ()) (commaRound item' rest' ()) (Shorter s) := by
  refine .andThen items fun first s₁ _ shorter => ?_
  refine .accept (Token.mark .comma) (fun s₂ onward => ?_) (.give shorter)
  exact .andThen (goes s₂ (by omega)) fun others s₃ _ _ => .give (by omega)

theorem alike_commaSeparated (items : Alike Fewer n item item') (bound : Nat) :
    Alike Fewer n (commaSeparated item bound) (commaSeparated item' bound) := by
  induction bound with
  | zero => exact fun s short => .andThen (items s short) fun first s₁ _ shorter => .give shorter
  | succ bound ih =>
      intro s short
      change Agree s (commaRound item (fun _ => commaSeparated item bound) ())
        (commaRound item' (fun _ => commaSeparated item' bound) ()) _
      exact agree_commaRound (items s short) (ih.mono (Nat.le_of_lt short))

theorem agree_terminatedRound (closing : Mark) {rest rest' : Unit → Reader (List α)}
    (items : Agree s item item' (Shorter s))
    (goes : Alike Anyhow s.ahead.length (rest ()) (rest' ())) :
    Agree s (terminatedRound item closing rest ()) (terminatedRound item' closing rest' ())
      fun _ _ => True := by
  refine .isNext (Token.mark closing) fun closes => ?_
  cases closes with
  | true => exact .give trivial
  | false =>
      refine .andThen items fun first s₁ _ shorter => ?_
      refine .accept (Token.mark .comma) (fun s₂ onward => ?_) (.give trivial)
      exact .andThen (goes s₂ (by omega)) fun others s₃ _ _ => .give trivial

theorem alike_commaTerminated (items : Alike Fewer n item item') (closing : Mark) (bound : Nat) :
    Alike Anyhow n (commaTerminated item closing bound) (commaTerminated item' closing bound) := by
  induction bound with
  | zero =>
      intro s short
      refine .isNext (Token.mark closing) fun closes => ?_
      cases closes with
      | true => exact .give trivial
      | false => exact .andThen (items s short) fun first s₁ _ _ => .give trivial
  | succ bound ih =>
      intro s short
      change Agree s (terminatedRound item closing (fun _ => commaTerminated item closing bound) ())
        (terminatedRound item' closing (fun _ => commaTerminated item' closing bound) ()) _
      exact agree_terminatedRound closing (items s short) (ih.mono (Nat.le_of_lt short))

end Items

/-! ### Expressions -/

section Expressions

variable {inner inner' : Reader Expr} (inside : Alike Fewer n inner inner')
include inside

theorem alike_arguments : Alike Fewer n (arguments inner) (arguments inner') := by
  intro s short
  refine .isNext (Token.mark .rParen) fun closes => ?_
  have closed (args : List Expr) (s' : Stream Token) (onward : s'.ahead.length ≤ s.ahead.length) :
      Agree s' (expect .rParen .argumentsEnd >>= fun _ => pure args)
        (expect .rParen .argumentsEnd >>= fun _ => pure args) (Shorter s) :=
    .andThen (agree_expect _ _) fun _ _ _ shorter => .give (by omega)
  cases closes with
  | true => exact closed [] s (Nat.le_refl _)
  | false =>
      refine .remaining (.andThen (alike_commaSeparated inside _ s short) ?_)
      exact fun args s₁ onward _ => closed args s₁ onward

theorem alike_property : Alike Fewer (n + 1) (property inner) (property inner') := by
  intro s short
  have behind (key : String) (t : Token) (next : s.items.head? = some t) :
      Agree s (do advance; expect .colon .propertyColon; return (key, ← inner))
        (do advance; expect .colon .propertyColon; return (key, ← inner')) (Shorter s) := by
    refine .advance next fun s₁ shorter => .andThen (agree_expect _ _) fun _ s₂ _ _ => ?_
    exact .andThen (inside s₂ (by omega)) fun e s₃ _ _ => .give (by omega)
  refine .peek fun t? next => ?_
  split
  · exact behind _ _ next
  · exact behind _ _ next
  · exact .never (agree_failMissing _)

theorem alike_primary : Alike Fewer (n + 1) (primary inner) (primary inner') := by
  intro s short
  refine .position fun pos => .peek fun t? next => ?_
  split
  case h_8 =>
    refine .advance next fun s₁ shorter => .andThen (inside s₁ (by omega)) fun e s₂ onward _ => ?_
    exact .andThen (agree_expect _ _) fun _ s₃ _ _ => .give (by omega)
  case h_9 =>
    refine .advance next fun s₁ shorter => .remaining ?_
    refine .andThen (alike_commaTerminated inside _ _ s₁ (by omega)) fun es s₂ _ _ => ?_
    exact .andThen (agree_expect _ _) fun _ s₃ _ _ => .give (by omega)
  case h_10 =>
    refine .advance next fun s₁ shorter => .remaining ?_
    have properties := (alike_property inside).mono (Nat.le_succ n)
    refine .andThen (alike_commaTerminated properties _ _ s₁ (by omega)) fun es s₂ _ _ => ?_
    exact .andThen (agree_expect _ _) fun _ s₃ _ _ => .give (by omega)
  case h_11 => exact agree_failMissing _
  all_goals exact .advance next fun s₁ shorter => .give shorter

theorem agree_access (object : Expr) (short : s.ahead.length < n + 1) :
    Agree s (access? inner object) (access? inner' object) (Consumed s) := by
  refine .position fun pos => .accept (Token.mark .lParen) (fun s₁ shorter => ?_) ?_
  · exact .andThen (alike_arguments inside s₁ (by omega)) fun args s₂ _ _ => .give fun _ => by omega
  · refine .accept (Token.mark .dot) (fun s₁ shorter => ?_) ?_
    · exact .andThen (agree_expectName _) fun name s₂ _ _ => .give fun _ => by omega
    · refine .accept (Token.mark .lBracket) (fun s₁ shorter => ?_) (.give nofun)
      refine .andThen (inside s₁ (by omega)) fun key s₂ _ _ => ?_
      exact .andThen (agree_expect _ _) fun _ s₃ _ _ => .give fun _ => by omega

theorem alike_accessed : Alike Fewer (n + 1) (accessed inner) (accessed inner') := by
  intro s short
  refine .andThen (alike_primary inside s short) fun object s₁ _ shorter => .remaining ?_
  have tails := fun object s short => agree_access inside (s := s) object short
  exact (alike_chainPostfix tails _ object s₁ (by omega)).past shorter

theorem alike_postfixUpdate : Alike Fewer (n + 1) (postfixUpdate inner) (postfixUpdate inner') := by
  intro s short
  refine .andThen (alike_accessed inside s short) fun target s₁ _ shorter => ?_
  refine .position fun pos => .peek fun t? next => ?_
  cases found : t?.bind updateOp? with
  | some op =>
      obtain ⟨t, rfl, -⟩ := Option.bind_eq_some_iff.mp found
      refine .advance next fun s₂ shorter' => ?_
      dsimp only
      split
      · exact .never (.fail _)
      · exact .give (by omega)
  | none => exact .give shorter

theorem agree_unaryRound {rest rest' : Unit → Reader Expr} (short : s.ahead.length < n + 1)
    (goes : Alike Fewer s.ahead.length (rest ()) (rest' ())) :
    Agree s (unaryRound inner rest ()) (unaryRound inner' rest' ()) (Shorter s) := by
  refine .position fun pos => .peek fun t? next => ?_
  cases found : t?.bind unaryOp? with
  | some op =>
      obtain ⟨t, rfl, -⟩ := Option.bind_eq_some_iff.mp found
      refine .advance next fun s₁ shorter => ?_
      exact .andThen (goes s₁ shorter) fun operand s₂ _ _ => .give (by omega)
  | none =>
      cases found : t?.bind updateOp? with
      | some op =>
          obtain ⟨t, rfl, -⟩ := Option.bind_eq_some_iff.mp found
          refine .advance next fun s₁ shorter => .andThen (goes s₁ shorter) fun target s₂ _ _ => ?_
          split
          · exact .never (.fail _)
          · exact .give (by omega)
      | none => exact alike_postfixUpdate inside s short

theorem alike_unary (bound : Nat) :
    Alike Fewer (n + 1) (unary inner bound) (unary inner' bound) := by
  induction bound with
  | zero => exact alike_postfixUpdate inside
  | succ bound ih =>
      intro s short
      change Agree s (unaryRound inner (fun _ => unary inner bound) ())
        (unaryRound inner' (fun _ => unary inner' bound) ()) _
      exact agree_unaryRound inside short (ih.mono (Nat.le_of_lt short))

omit inside

theorem probes_binaryOp? (ofToken : Token → Option BinaryOp) : Probes (binaryOp? ofToken) := by
  refine probes_of_agree (fun s => .position fun pos => .peek fun t? next => ?_) ?_
  · cases found : t?.bind ofToken with
    | some op =>
        obtain ⟨t, rfl, -⟩ := Option.bind_eq_some_iff.mp found
        exact .advance next fun s₁ shorter => .give fun _ => shorter
    | none => exact .give nofun
  · exact fun _ _ => rfl

theorem probes_logicalOp? (mark : Mark) (op : LogicalOp) : Probes (logicalOp? mark op) := by
  refine probes_of_agree (fun s => .position fun pos => ?_) ?_
  · exact .accept (Token.mark mark) (fun s₁ shorter => .give fun _ => shorter) (.give nofun)
  · exact fun _ _ => rfl

include inside

theorem alike_operand : Alike Fewer (n + 1) (do unary inner (← remaining))
    (do unary inner' (← remaining)) :=
  fun s short => .remaining (alike_unary inside _ s short)

theorem alike_factor : Alike Fewer (n + 1) (factor inner) (factor inner') :=
  alike_infixLeft (probes_binaryOp? _) (alike_operand inside)

theorem alike_term : Alike Fewer (n + 1) (term inner) (term inner') :=
  alike_infixLeft (probes_binaryOp? _) (alike_factor inside)

theorem alike_comparison : Alike Fewer (n + 1) (comparison inner) (comparison inner') :=
  alike_infixLeft (probes_binaryOp? _) (alike_term inside)

theorem alike_equality : Alike Fewer (n + 1) (equality inner) (equality inner') :=
  alike_infixLeft (probes_binaryOp? _) (alike_comparison inside)

theorem alike_conjunction : Alike Fewer (n + 1) (conjunction inner) (conjunction inner') :=
  alike_infixLeft (probes_logicalOp? _ _) (alike_equality inside)

theorem alike_disjunction : Alike Fewer (n + 1) (disjunction inner) (disjunction inner') :=
  alike_infixLeft (probes_logicalOp? _ _) (alike_conjunction inside)

theorem alike_ternary : Alike Fewer (n + 1) (ternary inner) (ternary inner') := by
  intro s short
  refine .andThen (alike_disjunction inside s short) fun test s₁ _ shorter => ?_
  refine .position fun pos => .accept (Token.mark .question) (fun s₂ onward => ?_) (.give shorter)
  refine .andThen (inside s₂ (by omega)) fun onTrue s₃ _ _ => ?_
  refine .andThen (agree_expect _ _) fun _ s₄ _ _ => ?_
  exact .andThen (inside s₄ (by omega)) fun onFalse s₅ _ _ => .give (by omega)

theorem alike_assignment : Alike Fewer (n + 1) (assignment inner) (assignment inner') := by
  intro s short
  refine .andThen (alike_ternary inside s short) fun target s₁ _ shorter => ?_
  refine .position fun pos => .peek fun t? next => ?_
  cases found : t?.bind assignOp? with
  | some op =>
      obtain ⟨t, rfl, -⟩ := Option.bind_eq_some_iff.mp found
      refine .advance next fun s₂ onward => ?_
      dsimp only
      split
      · exact .never (.fail _)
      · exact .andThen (inside s₂ (by omega)) fun value s₃ _ _ => .give (by omega)
  | none => exact .give shorter

end Expressions

theorem guarded_expressionRound : Guarded Fewer expressionRound :=
  fun s _ _ goes _ => alike_assignment (goes ()) s (Nat.lt_succ_self _)

theorem bounded_nested : Bounded expressionRound fun bound _ => nested bound :=
  ⟨fun _ _ => rfl, fun _ _ _ => rfl⟩

theorem advances_nested (bound : Nat) : Advances (nested bound) := by
  have first : Advances (nested 0) := advances_of_agree fun s => agree_failMissing _
  exact guarded_expressionRound.advances bounded_nested (fun _ => first) bound ()

theorem advances_expression : Advances expression :=
  advances_of_agree fun s => .remaining ((advances_nested _).agree s)

theorem agree_expression : Agree s expression expression (Shorter s) :=
  advances_expression.agree s

/-! ### Statements -/

theorem agree_optionalSemicolon :
    Agree s optionalSemicolon optionalSemicolon fun _ _ => True :=
  .accept (Token.mark .semicolon) (fun _ _ => .give trivial) (.give trivial)

theorem agree_terminated {read : Reader Stmt} {Q : Stmt → Nat → Prop}
    (reads : Agree s read read Q) :
    Agree s (terminated read) (terminated read) fun _ _ => True :=
  .andThen reads fun _ _ _ _ => .andThen agree_optionalSemicolon fun _ _ _ _ => .give trivial

theorem agree_declaration (kind : DeclarationKind) (pos : Position) :
    Agree s (declaration kind pos) (declaration kind pos) (Shorter s) := by
  refine .andThen (agree_expectName _) fun name s₁ _ shorter => ?_
  refine .accept (Token.mark .assign) (fun s₂ onward => ?_) ?_
  · exact .andThen agree_expression fun value s₃ _ _ => .give (by omega)
  · cases kind with
    | letBinding => exact .give shorter
    | constBinding => exact .never (.fail _)

theorem agree_testInParens : Agree s testInParens testInParens (Shorter s) := by
  refine .andThen (agree_expect _ _) fun _ s₁ _ shorter => ?_
  refine .andThen agree_expression fun test s₂ _ _ => ?_
  exact .andThen (agree_expect _ _) fun _ s₃ _ _ => .give (by omega)

theorem agree_expressionBefore (closing : Mark) :
    Agree s (expressionBefore closing) (expressionBefore closing) fun _ _ => True := by
  refine .isNext (Token.mark closing) fun closes => ?_
  cases closes with
  | true => exact .give trivial
  | false => exact .andThen agree_expression fun e s₁ _ _ => .give trivial

theorem agree_forStart : Agree s forStart forStart fun _ _ => True := by
  refine .position fun pos => .peek fun t? next => ?_
  cases found : t?.bind declarationKind? with
  | some kind =>
      obtain ⟨t, rfl, -⟩ := Option.bind_eq_some_iff.mp found
      refine .advance next fun s₁ shorter => ?_
      exact .andThen (agree_declaration kind pos) fun first s₂ _ _ => .give trivial
  | none => exact .andThen (agree_expressionBefore _) fun found s₁ _ _ => .give trivial

theorem agree_forOfHeader? : Agree s forOfHeader? forOfHeader? fun _ _ => True := by
  refine .peek fun t? next => .peekSecond fun second? => .peekThird fun third? => ?_
  split
  · refine .advanceMaybe fun _ _ => .advanceMaybe fun _ _ => .advanceMaybe fun _ _ => ?_
    exact .give trivial
  · exact .give trivial

theorem agree_returnStatement (pos : Position) :
    Agree s (returnStatement pos) (returnStatement pos) fun _ _ => True := by
  have gives : Agree s (do return Stmt.giveBack (some (← expression)) pos)
      (do return Stmt.giveBack (some (← expression)) pos) fun _ _ => True :=
    .andThen agree_expression fun value s₁ _ _ => .give trivial
  refine .isNext (Token.mark .semicolon) fun a => .isNext (Token.mark .rBrace) fun b => ?_
  refine .atEnd (fun _ => .position fun place => ?_) fun _ => .position fun place => ?_ <;>
  · split
    · exact .give trivial
    · exact gives

section Statements

variable {inner inner' : Reader Stmt} (inside : Alike Fewer n inner inner')
include inside

theorem agree_blockRound {rest rest' : Unit → Reader (List Stmt)} (short : s.ahead.length < n)
    (goes : Alike Anyhow s.ahead.length (rest ()) (rest' ())) :
    Agree s (blockRound inner rest ()) (blockRound inner' rest' ()) fun _ _ => True := by
  refine .accept (Token.mark .rBrace) (fun _ _ => .give trivial) ?_
  refine .atEnd (fun _ => .never (agree_failMissing _)) fun _ => ?_
  refine .accept (Token.mark .semicolon) (goes ·) ?_
  refine .andThen (inside s short) fun first s₁ _ shorter => ?_
  exact .andThen (goes s₁ shorter) fun others s₂ _ _ => .give trivial

theorem alike_block : Alike Anyhow n (block inner) (block inner') := by
  have body (bound : Nat) : Alike Anyhow n (blockBody inner bound) (blockBody inner' bound) := by
    induction bound with
    | zero => exact fun s _ => agree_failMissing _
    | succ bound ih =>
        intro s short
        change Agree s (blockRound inner (fun _ => blockBody inner bound) ())
          (blockRound inner' (fun _ => blockBody inner' bound) ()) _
        exact agree_blockRound inside short (ih.mono (Nat.le_of_lt short))
  exact fun s short => .remaining (body _ s short)

theorem alike_conditional (pos : Position) :
    Alike Fewer n (conditional inner pos) (conditional inner' pos) := by
  intro s short
  refine .andThen agree_testInParens fun test s₁ _ shorter => ?_
  refine .andThen (inside s₁ (by omega)) fun onTrue s₂ _ _ => ?_
  refine .accept (Token.word .elseWord) (fun s₃ _ => ?_) (.give (by omega))
  exact .andThen (inside s₃ (by omega)) fun onFalse s₄ _ _ => .give (by omega)

theorem alike_forStatement (pos : Position) :
    Alike Fewer n (forStatement inner pos) (forStatement inner' pos) := by
  intro s short
  refine .andThen (agree_expect _ _) fun _ s₁ _ shorter => ?_
  refine .andThen agree_forOfHeader? fun header s₂ onward₂ _ => ?_
  cases header with
  | some header =>
      refine .andThen agree_expression fun iterable s₃ _ _ => ?_
      refine .andThen (agree_expect _ _) fun _ s₄ _ _ => ?_
      exact .andThen (inside s₄ (by omega)) fun body s₅ _ _ => .give (by omega)
  | none =>
      refine .andThen agree_forStart fun start s₃ onward₃ _ => ?_
      refine .andThen (agree_expect _ _) fun _ s₄ onward₄ _ => ?_
      refine .andThen (agree_expressionBefore _) fun test s₅ onward₅ _ => ?_
      refine .andThen (agree_expect _ _) fun _ s₆ onward₆ _ => ?_
      refine .andThen (agree_expressionBefore _) fun update s₇ onward₇ _ => ?_
      refine .andThen (agree_expect _ _) fun _ s₈ onward₈ _ => ?_
      exact .andThen (inside s₈ (by omega)) fun body s₉ _ _ => .give (by omega)

theorem alike_functionStatement (topLevel : Bool) (pos : Position) :
    Alike Fewer n (functionStatement inner topLevel pos)
      (functionStatement inner' topLevel pos) := by
  intro s short
  refine .andThen (agree_expectName _) fun name s₁ _ shorter => ?_
  cases topLevel with
  | false => exact .never (.throw _)
  | true =>
      refine .andThen (agree_expect _ _) fun _ s₂ onward₂ _ => ?_
      have behind (params : List String) (s' : Stream Token)
          (onward : s'.ahead.length < s.ahead.length) :
          Agree s'
            (do
              expect .rParen .parametersEnd
              expect .lBrace .bodyStart
              return Stmt.function name params (← block inner) pos)
            (do
              expect .rParen .parametersEnd
              expect .lBrace .bodyStart
              return Stmt.function name params (← block inner') pos) (Shorter s) := by
        refine .andThen (agree_expect _ _) fun _ s₁ onward₁ _ => ?_
        refine .andThen (agree_expect _ _) fun _ s₂ onward₂ _ => ?_
        exact .andThen (alike_block inside s₂ (by omega)) fun body s₃ _ _ => .give (by omega)
      refine .isNext (Token.mark .rParen) fun closes => ?_
      cases closes with
      | true => exact behind [] s₂ (by omega)
      | false =>
          have names : Alike Fewer n (expectName .parameterName) (expectName .parameterName) :=
            fun _ _ => agree_expectName _
          refine .remaining (.andThen (alike_commaSeparated names _ s₂ (by omega)) ?_)
          exact fun params s₃ onward₃ _ => behind params s₃ (by omega)

end Statements

theorem guarded_statementRound : Guarded Fewer statementRound := by
  intro s rest rest' goes topLevel
  have inside : Alike Fewer s.ahead.length (rest false) (rest' false) := goes false
  refine .position fun pos => .peek fun t? next => ?_
  split
  case h_1 | h_2 =>
    exact .advance next fun s₁ shorter => (agree_terminated (agree_declaration _ pos)).past shorter
  case h_3 =>
    refine .advance next fun s₁ shorter => ?_
    exact .andThen (alike_block inside s₁ shorter) fun body s₂ _ _ => .give (by omega)
  case h_4 =>
    exact .advance next fun s₁ shorter => (alike_conditional inside pos s₁ shorter).past shorter
  case h_5 =>
    refine .advance next fun s₁ shorter => .andThen agree_testInParens fun test s₂ _ _ => ?_
    exact .andThen (inside s₂ (by omega)) fun body s₃ _ _ => .give (by omega)
  case h_6 =>
    exact .advance next fun s₁ shorter => (alike_forStatement inside pos s₁ shorter).past shorter
  case h_7 =>
    exact .advance next fun s₁ shorter =>
      (alike_functionStatement inside topLevel pos s₁ shorter).past shorter
  case h_8 =>
    exact .advance next fun s₁ shorter =>
      (agree_terminated (agree_returnStatement pos)).past shorter
  case h_11 =>
    refine .andThen (P := Shorter s) ?_ fun value s₁ _ shorter => ?_
    · exact .andThen agree_expression fun value s₁ _ shorter => .give shorter
    · exact .andThen agree_optionalSemicolon fun _ s₂ _ _ => .give (by omega)
  all_goals
    refine .advance next fun s₁ shorter => (agree_terminated (Q := fun _ _ => True) ?_).past shorter
    exact .give trivial

theorem bounded_statement : Bounded statementRound statement :=
  ⟨fun _ _ => rfl, fun _ _ _ => rfl⟩

theorem advances_statement (bound : Nat) (topLevel : Bool) : Advances (statement bound topLevel) :=
  guarded_statementRound.advances bounded_statement
    (fun _ => advances_of_agree fun _ => agree_failMissing _) bound topLevel

theorem guarded_statementsRound : Guarded (fun _ after => after = 0) statementsRound := by
  intro s rest rest' goes _
  refine .atEnd (fun ended => .give (List.length_eq_zero_iff.mpr ended)) fun _ => ?_
  refine .accept (Token.mark .semicolon) (goes ()) (.remaining ?_)
  refine .andThen ((advances_statement _ true).agree s) fun first s₁ _ shorter => ?_
  exact .andThen (goes () s₁ shorter) fun others s₂ _ ended => .give ended

theorem bounded_statements : Bounded statementsRound fun bound _ => statements bound :=
  ⟨fun _ _ => rfl, fun _ _ _ => rfl⟩

/-! ### The parser -/

/-- The operators and operands of the levels of expressions, from the tightest to the loosest. -/
def levels (inner : Reader Expr) : List (Reader (Option (Expr → Expr → Expr)) × Reader Expr) :=
  [(binaryOp? factorOp?, do unary inner (← remaining)),
    (binaryOp? termOp?, factor inner),
    (binaryOp? comparisonOp?, term inner),
    (binaryOp? equalityOp?, comparison inner),
    (logicalOp? .andAnd .and, equality inner),
    (logicalOp? .orOr .or, conjunction inner)]

/-- Every loop and every recursion of the parser ends on every stream, where the readers that it is
given read tokens. -/
structure EveryLoopEnds : Prop where
  items {α : Type} (item : Reader α) : Advances item →
    Terminates (commaRound item) fun bound _ => commaSeparated item bound
  elements {α : Type} (item : Reader α) (closing : Mark) : Advances item →
    Terminates (terminatedRound item closing) fun bound _ => commaTerminated item closing bound
  prefixes (inner : Reader Expr) : Advances inner →
    Terminates (unaryRound inner) fun bound _ => unary inner bound
  accesses (inner : Reader Expr) : Advances inner →
    Terminates (postfixRound (access? inner)) (chainPostfix (access? inner))
  operators (inner : Reader Expr) : Advances inner → ∀ level ∈ levels inner,
    Terminates (leftRound level.1 level.2) (chainLeft level.1 level.2)
  expressions : Terminates expressionRound fun bound _ => nested bound
  blocks (inner : Reader Stmt) : Advances inner →
    Terminates (blockRound inner) fun bound _ => blockBody inner bound
  nesting : Terminates statementRound statement
  program : Terminates statementsRound fun bound _ => statements bound

section Loops

variable {item : Reader α} {inner : Reader Expr} {body : Reader Stmt}

theorem terminates_commaSeparated (advances : Advances item) :
    Terminates (commaRound item) fun bound _ => commaSeparated item bound := by
  have bounded : Bounded (commaRound item) fun bound _ => commaSeparated item bound := by
    refine ⟨fun _ _ => rfl, fun _ last stop => ?_⟩
    obtain ⟨mistake, s', failed⟩ := advances.fails last stop
    exact (bind_error failed).trans (bind_error failed).symm
  have guarded : Guarded Fewer (commaRound item) :=
    fun s _ _ goes _ => agree_commaRound (advances.agree s) (goes ())
  exact guarded.terminates bounded

theorem terminates_commaTerminated (advances : Advances item) (closing : Mark) :
    Terminates (terminatedRound item closing)
      fun bound _ => commaTerminated item closing bound := by
  have bounded : Bounded (terminatedRound item closing)
      fun bound _ => commaTerminated item closing bound := by
    refine ⟨fun _ _ => rfl, fun _ last stop => ?_⟩
    obtain ⟨mistake, s', failed⟩ := advances.fails last stop
    exact (bind_error failed).trans (bind_error failed).symm
  have guarded : Guarded Anyhow (terminatedRound item closing) :=
    fun s _ _ goes _ => agree_terminatedRound closing (advances.agree s) (goes ())
  exact guarded.terminates bounded

theorem terminates_unary (advances : Advances inner) :
    Terminates (unaryRound inner) fun bound _ => unary inner bound := by
  have bounded : Bounded (unaryRound inner) fun bound _ => unary inner bound :=
    ⟨fun _ _ => rfl, fun _ _ _ => rfl⟩
  have guarded : Guarded Fewer (unaryRound inner) :=
    fun s _ _ goes _ => agree_unaryRound (advances.alike _) (Nat.lt_succ_self _) (goes ())
  exact guarded.terminates bounded

theorem probes_access? (advances : Advances inner) (object : Expr) :
    Probes (access? inner object) :=
  probes_of_agree
    (fun _ => agree_access (advances.alike _) object (Nat.lt_succ_self _)) fun _ _ => rfl

theorem forall_levels (advances : Advances inner) :
    ∀ level ∈ levels inner, Probes level.1 ∧ Advances level.2 := by
  have inside (n : Nat) : Alike Fewer n inner inner := advances.alike n
  have whole {x : Reader Expr} (alike : ∀ n, Alike Fewer (n + 1) x x) : Advances x :=
    advances_of_alike fun n => (alike n).mono (Nat.le_succ n)
  simp only [levels, List.forall_mem_cons, List.not_mem_nil, false_implies, implies_true, and_true]
  exact ⟨⟨probes_binaryOp? _, whole fun n => alike_operand (inside n)⟩,
    ⟨probes_binaryOp? _, whole fun n => alike_factor (inside n)⟩,
    ⟨probes_binaryOp? _, whole fun n => alike_term (inside n)⟩,
    ⟨probes_binaryOp? _, whole fun n => alike_comparison (inside n)⟩,
    ⟨probes_logicalOp? _ _, whole fun n => alike_equality (inside n)⟩,
    ⟨probes_logicalOp? _ _, whole fun n => alike_conjunction (inside n)⟩⟩

theorem terminates_block (advances : Advances body) :
    Terminates (blockRound body) fun bound _ => blockBody body bound := by
  have bounded : Bounded (blockRound body) fun bound _ => blockBody body bound :=
    ⟨fun _ _ => rfl, fun _ _ _ => rfl⟩
  have guarded : Guarded Anyhow (blockRound body) :=
    fun s _ _ goes _ => agree_blockRound (advances.alike _) (Nat.lt_succ_self _) (goes ())
  exact guarded.terminates bounded

end Loops

theorem everyLoopEnds : EveryLoopEnds where
  items _ advances := terminates_commaSeparated advances
  elements _ closing advances := terminates_commaTerminated advances closing
  prefixes _ advances := terminates_unary advances
  accesses _ advances := terminates_chainPostfix (probes_access? advances)
  operators _ advances level member := by
    obtain ⟨probes, advances⟩ := forall_levels advances level member
    exact terminates_chainLeft probes advances
  expressions := guarded_expressionRound.terminates bounded_nested
  blocks _ advances := terminates_block advances
  nesting := guarded_statementRound.terminates bounded_statement
  program := guarded_statementsRound.terminates bounded_statements

theorem getsOn : GetsOn expression nested statement (do statements (← remaining)) := by
  have program (s : Stream Token) : Agree s (do statements (← remaining))
      (do statements (← remaining)) fun _ after => after = 0 :=
    .remaining (guarded_statementsRound.agree bounded_statements (Nat.le_refl _) ())
  exact
    { expression := advances_expression
      nested := advances_nested
      statement := advances_statement
      onward s := (program s).onward
      consumed s _ _ ran := List.length_eq_zero_iff.mp ((program s).fits ran) }

end Reader
end JavaScript

/-- Both parsers get on. An expression or a statement that is read takes at least one token, no
reader goes back or past the end, and when a program is read no token is left. Every loop and every
recursion ends on whatever tokens there are, since it reads one before it goes on. -/
theorem parsers_get_on :
    (GetsOn JikiScript.Reader.expression JikiScript.Reader.nested JikiScript.Reader.statement
        (do JikiScript.Reader.statements (← remaining)) ∧
      JikiScript.Reader.EveryLoopEnds) ∧
    (GetsOn JavaScript.Reader.expression JavaScript.Reader.nested JavaScript.Reader.statement
        (do JavaScript.Reader.statements (← remaining)) ∧
      JavaScript.Reader.EveryLoopEnds) :=
  ⟨⟨JikiScript.Reader.getsOn, JikiScript.Reader.everyLoopEnds⟩,
    ⟨JavaScript.Reader.getsOn, JavaScript.Reader.everyLoopEnds⟩⟩

end Walkthrough
