import Walkthrough.JikiScript.Parser
import Walkthrough.Proofs.Progress

/-! The readers of JikiScript get on. Each recursion of the parser is given by one of its rounds. A
reader is held against itself with other readers for what nests inside it: this shows at once that
it reads on, and that it asks for what nests inside only behind a token. -/

namespace Walkthrough.JikiScript
namespace Reader

open Walkthrough.Parser

variable {α : Type} {s : Stream Token} {n : Nat}

/-! ### Rounds -/

def newlinesRound (rest : Unit → Reader Unit) (_ : Unit) : Reader Unit := do
  if ← accept .newline then rest ()

/-- An item and the comma behind it. -/
def commaRound (item : Reader α) (rest : Unit → Reader (List α)) (_ : Unit) : Reader (List α) := do
  let first ← item
  skipNewlines
  if ← accept (.mark .comma) then
    skipNewlines
    return first :: (← rest ())
  else return [first]

def unaryRound (inner : Reader Expr) (rest : Unit → Reader Expr) (_ : Unit) : Reader Expr := do
  let pos ← position
  match (← peek?).bind unaryOp? with
  | some op =>
    advance
    return .unary op (← rest ()) pos
  | none => indexed inner

/-- An expression, up to the expressions in its brackets. -/
def expressionRound (rest : Unit → Reader Expr) (_ : Unit) : Reader Expr :=
  disjunction (rest ())

def indexesRound (rest : Unit → Reader (List Expr)) (_ : Unit) : Reader (List Expr) := do
  if ← accept (.mark .lBracket) then
    let key ← expression
    expect (.mark .rBracket) .missingRightBracketAfterIndex
    return key :: (← rest ())
  else return []

def blockRound (inner : Reader Stmt) (block : BlockKind) (rest : Unit → Reader (List Stmt))
    (_ : Unit) : Reader (List Stmt) := do
  skipNewlines
  match ← peek? with
  | some (.word .endWord) =>
    advance
    return []
  | none => fail (.missingEnd block)
  | found =>
    if found = some (.word .elseWord) && BlockKind.hasBranches block then return []
    else
      let first ← inner
      return first :: (← rest ())

def conditionalRound (inner : Reader Stmt) (rest : Position → Reader Stmt) (pos : Position) :
    Reader Stmt := do
  let condition ← expression
  expectDo .ifBranch
  let onTrue ← block inner .ifBranch
  if ← accept (.word .elseWord) then
    let elsePos ← position
    if ← accept (.word .ifWord) then
      let chained ← rest elsePos
      return .conditional condition onTrue (some [chained]) pos
    else
      expectDo .elseBranch
      let onFalse ← block inner .elseBranch
      if ← isNext (.word .elseWord) then fail .elseAfterElse
      endOfLine
      return .conditional condition onTrue (some onFalse) pos
  else
    endOfLine
    return .conditional condition onTrue none pos

def parametersRound (rest : Unit → Reader (List String)) (_ : Unit) : Reader (List String) := do
  let first ← expectName .missingParameterName
  if ← accept (.mark .comma) then return first :: (← rest ())
  match ← peek? with
  | some (.name _) => fail .missingCommaBetweenParameters
  | _ => return [first]

def statementRound (rest : Bool → Reader Stmt) (topLevel : Bool) : Reader Stmt := do
  let inner := rest false
  let pos ← position
  match ← peek? with
  | some (.word .setWord) =>
    advance
    onOneLine (setStatement pos)
  | some (.word .changeWord) =>
    advance
    onOneLine (changeStatement pos)
  | some (.word .logWord) =>
    advance
    onOneLine (do return .log (← expression) pos)
  | some (.word .ifWord) =>
    advance
    conditional inner ((← remaining) + 1) pos
  | some (.word .repeatWord) =>
    advance
    repeatStatement inner pos
  | some (.word .forWord) =>
    advance
    forEachStatement inner pos
  | some (.word .doWord) =>
    advance
    plainBlock inner pos
  | some (.word .functionWord) =>
    advance
    functionStatement inner topLevel pos
  | some (.word .returnWord) =>
    advance
    onOneLine (returnStatement pos)
  | some (.word .breakWord) =>
    advance
    onOneLine (pure (.leaveLoop pos))
  | some (.word .nextWord) =>
    advance
    onOneLine (pure (.nextIteration (Keyword.spelling .nextWord) pos))
  | some (.word .continueWord) =>
    advance
    onOneLine (pure (.nextIteration (Keyword.spelling .continueWord) pos))
  | _ => onOneLine (do return .expression (← expression) pos)

def statementsRound (rest : Unit → Reader Program) (_ : Unit) : Reader Program := do
  if ← atEnd then return []
  if ← accept .newline then rest ()
  else
    let first ← statement (← remaining) true
    return first :: (← rest ())

/-! ### Items -/

theorem agree_expect (token : Token) (mistake : Mistake) :
    Agree s (expect token mistake) (expect token mistake) (Shorter s) := by
  refine .accept token (fun s' shorter => .give shorter) ?_
  exact .fail mistake

theorem agree_expectName (mistake : Mistake) :
    Agree s (expectName mistake) (expectName mistake) (Shorter s) := by
  refine .peek fun t? next => ?_
  split
  · exact .advance next fun s' shorter => .give shorter
  · exact .fail mistake

theorem guarded_newlinesRound : Guarded Anyhow newlinesRound := by
  intro s rest rest' goes _
  exact .accept Token.newline (goes ()) (.give trivial)

theorem bounded_skipNewlinesTo : Bounded newlinesRound fun bound _ => skipNewlinesTo bound :=
  ⟨fun _ _ => rfl, fun _ _ _ => rfl⟩

theorem agree_skipNewlines : Agree s skipNewlines skipNewlines fun _ _ => True :=
  .remaining (guarded_newlinesRound.agree bounded_skipNewlinesTo (Nat.le_refl _) ())

section Items

variable {item item' : Reader α}

theorem agree_commaRound {rest rest' : Unit → Reader (List α)}
    (items : Agree s item item' (Shorter s))
    (goes : Alike Fewer s.ahead.length (rest ()) (rest' ())) :
    Agree s (commaRound item rest ()) (commaRound item' rest' ()) (Shorter s) := by
  refine .andThen items fun first s₁ _ shorter => ?_
  refine .andThen agree_skipNewlines fun _ s₂ onward _ => ?_
  refine .accept (Token.mark .comma) (fun s₃ onward' => ?_) (.give (by omega))
  refine .andThen agree_skipNewlines fun _ s₄ onward'' _ => ?_
  exact .andThen (goes s₄ (by omega)) fun others s₅ _ _ => .give (by omega)

theorem alike_commaSeparated (items : Alike Fewer n item item') (bound : Nat) :
    Alike Fewer n (commaSeparated item bound) (commaSeparated item' bound) := by
  induction bound with
  | zero => exact fun s short => .andThen (items s short) fun first s₁ _ shorter => .give shorter
  | succ bound ih =>
      intro s short
      change Agree s (commaRound item (fun _ => commaSeparated item bound) ())
        (commaRound item' (fun _ => commaSeparated item' bound) ()) _
      exact agree_commaRound (items s short) (ih.mono (Nat.le_of_lt short))

theorem alike_enclosed (items : Alike Fewer n item item') (closing : Mark) (mistake : Mistake) :
    Alike Fewer n (enclosed item closing mistake) (enclosed item' closing mistake) := by
  intro s short
  refine .andThen agree_skipNewlines fun _ s₁ onward _ => ?_
  refine .isNext (Token.mark closing) fun closes => ?_
  have closed (xs : List α) (s' : Stream Token) (onward : s'.ahead.length ≤ s.ahead.length) :
      Agree s' (expect (.mark closing) mistake >>= fun _ => pure xs)
        (expect (.mark closing) mistake >>= fun _ => pure xs) (Shorter s) :=
    .andThen (agree_expect _ _) fun _ _ _ shorter => .give (by omega)
  cases closes with
  | true => exact closed [] s₁ onward
  | false =>
      refine .remaining (.andThen (alike_commaSeparated items _ s₁ (by omega)) ?_)
      exact fun xs s₂ _ shorter => closed xs s₂ (by omega)

end Items

/-! ### Expressions -/

section Expressions

variable {inner inner' : Reader Expr} (inside : Alike Fewer n inner inner')
include inside

theorem alike_entry : Alike Fewer (n + 1) (entry inner) (entry inner') := by
  intro s short
  refine .peek fun t? next => ?_
  split
  · refine .advance next fun s₁ shorter => ?_
    refine .andThen (agree_expect _ _) fun _ s₂ onward _ => ?_
    refine .andThen agree_skipNewlines fun _ s₃ onward' _ => ?_
    exact .andThen (inside s₃ (by omega)) fun e s₄ _ _ => .give (by omega)
  · exact .fail _

theorem alike_primary : Alike Fewer (n + 1) (primary inner) (primary inner') := by
  intro s short
  refine .position fun pos => .peek fun t? next => ?_
  split
  case h_6 =>
    refine .advance next fun s₁ shorter => .accept (Token.mark .lParen) (fun s₂ shorter' => ?_) ?_
    · refine .andThen (alike_enclosed inside _ _ s₂ (by omega)) fun args s₃ _ _ => .give (by omega)
    · exact .give shorter
  case h_7 =>
    refine .advance next fun s₁ shorter => .andThen (inside s₁ (by omega)) fun e s₂ onward _ => ?_
    exact .andThen (agree_expect _ _) fun _ s₃ _ _ => .give (by omega)
  case h_8 =>
    refine .advance next fun s₁ shorter => ?_
    exact .andThen (alike_enclosed inside _ _ s₁ (by omega)) fun es s₂ _ _ => .give (by omega)
  case h_9 =>
    refine .advance next fun s₁ shorter => ?_
    have entries := (alike_entry inside).mono (Nat.le_succ n)
    exact .andThen (alike_enclosed entries _ _ s₁ (by omega)) fun es s₂ _ _ => .give (by omega)
  case h_10 => exact .fail _
  all_goals exact .advance next fun s₁ shorter => .give shorter

theorem agree_indexing (object : Expr) (short : s.ahead.length < n + 1) :
    Agree s (indexing? inner object) (indexing? inner' object) (Consumed s) := by
  refine .position fun pos => .accept (Token.mark .lBracket) (fun s₁ shorter => ?_) ?_
  · refine .andThen (inside s₁ (by omega)) fun key s₂ _ _ => ?_
    exact .andThen (agree_expect _ _) fun _ s₃ _ _ => .give fun _ => by omega
  · exact .give nofun

theorem alike_indexed : Alike Fewer (n + 1) (indexed inner) (indexed inner') := by
  intro s short
  refine .andThen (alike_primary inside s short) fun object s₁ _ shorter => .remaining ?_
  have tails := fun object s short => agree_indexing inside (s := s) object short
  exact (alike_chainPostfix tails _ object s₁ (by omega)).past shorter

theorem agree_unaryRound {rest rest' : Unit → Reader Expr} (short : s.ahead.length < n + 1)
    (goes : Alike Fewer s.ahead.length (rest ()) (rest' ())) :
    Agree s (unaryRound inner rest ()) (unaryRound inner' rest' ()) (Shorter s) := by
  refine .position fun pos => .peek fun t? next => ?_
  cases found : t?.bind unaryOp? with
  | some op =>
      obtain ⟨t, rfl, -⟩ := Option.bind_eq_some_iff.mp found
      refine .advance next fun s₁ shorter => ?_
      exact .andThen (goes s₁ shorter) fun operand s₂ _ _ => .give (by omega)
  | none => exact alike_indexed inside s short

theorem alike_unary (bound : Nat) :
    Alike Fewer (n + 1) (unary inner bound) (unary inner' bound) := by
  induction bound with
  | zero => exact alike_indexed inside
  | succ bound ih =>
      intro s short
      change Agree s (unaryRound inner (fun _ => unary inner bound) ())
        (unaryRound inner' (fun _ => unary inner' bound) ()) _
      exact agree_unaryRound inside short (ih.mono (Nat.le_of_lt short))

omit inside

theorem probes_binaryOp? (ofToken : Token → Option BinaryOp) : Probes (binaryOp? ofToken) := by
  refine probes_of_agree (fun s => .position fun pos => .peek fun t? next => ?_) ?_
  · cases found : t?.bind ofToken with
    | some op =>
        obtain ⟨t, rfl, -⟩ := Option.bind_eq_some_iff.mp found
        exact .advance next fun s₁ shorter => .give fun _ => shorter
    | none => exact .give nofun
  · exact fun _ _ => rfl

theorem probes_logicalOp? (keyword : Keyword) (op : LogicalOp) :
    Probes (logicalOp? keyword op) := by
  refine probes_of_agree (fun s => .position fun pos => ?_) ?_
  · exact .accept (Token.word keyword) (fun s₁ shorter => .give fun _ => shorter) (.give nofun)
  · exact fun _ _ => rfl

theorem probes_equalityOp? : Probes equalityOp? := by
  refine probes_of_agree (fun s => .position fun pos => .peek fun t? next => ?_) ?_
  · refine .peekSecond fun second? => ?_
    split
    case h_5 | h_6 =>
      refine .advance next fun s₁ shorter => .advanceMaybe fun s₂ onward => .give fun _ => ?_
      exact Nat.lt_of_le_of_lt onward shorter
    case h_7 => exact .fail _
    case h_8 => exact .give nofun
    all_goals exact .advance next fun s₁ shorter => .give fun _ => shorter
  · exact fun _ _ => rfl

include inside

theorem alike_operand : Alike Fewer (n + 1) (do unary inner (← remaining))
    (do unary inner' (← remaining)) :=
  fun s short => .remaining (alike_unary inside _ s short)

theorem alike_factor : Alike Fewer (n + 1) (factor inner) (factor inner') :=
  alike_infixLeft (probes_binaryOp? _) (alike_operand inside)

theorem alike_term : Alike Fewer (n + 1) (term inner) (term inner') :=
  alike_infixLeft (probes_binaryOp? _) (alike_factor inside)

theorem alike_comparison : Alike Fewer (n + 1) (comparison inner) (comparison inner') :=
  alike_infixLeft (probes_binaryOp? _) (alike_term inside)

theorem alike_equality : Alike Fewer (n + 1) (equality inner) (equality inner') :=
  alike_infixLeft probes_equalityOp? (alike_comparison inside)

theorem alike_conjunction : Alike Fewer (n + 1) (conjunction inner) (conjunction inner') :=
  alike_infixLeft (probes_logicalOp? _ _) (alike_equality inside)

theorem alike_disjunction : Alike Fewer (n + 1) (disjunction inner) (disjunction inner') :=
  alike_infixLeft (probes_logicalOp? _ _) (alike_conjunction inside)

end Expressions

theorem guarded_expressionRound : Guarded Fewer expressionRound :=
  fun s _ _ goes _ => alike_disjunction (goes ()) s (Nat.lt_succ_self _)

theorem bounded_nested : Bounded expressionRound fun bound _ => nested bound :=
  ⟨fun _ _ => rfl, fun _ _ _ => rfl⟩

theorem advances_nested (bound : Nat) : Advances (nested bound) := by
  have first : Advances (nested 0) := advances_of_agree fun s => .peek fun _ _ => .fail _
  exact guarded_expressionRound.advances bounded_nested (fun _ => first) bound ()

theorem advances_expression : Advances expression :=
  advances_of_agree fun s => .remaining ((advances_nested _).agree s)

theorem agree_expression : Agree s expression expression (Shorter s) :=
  advances_expression.agree s

/-! ### Statements -/

theorem agree_endOfLine : Agree s endOfLine endOfLine fun _ _ => True := by
  refine .accept Token.newline (fun _ _ => .give trivial) ?_
  refine .atEnd (fun _ => .give trivial) fun _ => ?_
  exact .seen (x := get) rfl (.fail _)

theorem agree_variableName (missing : Mistake) :
    Agree s (variableName missing) (variableName missing) (Shorter s) := by
  refine .peek fun t? next => ?_
  split
  · exact .fail _
  · refine .advance next fun s₁ shorter => .peek fun t? next => ?_
    split
    · exact .fail _
    · exact .give shorter
  · exact .fail missing

theorem agree_expectTo (name : String) :
    Agree s (expectTo name) (expectTo name) (Shorter s) := by
  refine .isNext (Token.mark .eq) fun found => ?_
  cases found with
  | true => exact .never (.fail _)
  | false => exact agree_expect _ _

theorem guarded_indexesRound : Guarded Anyhow indexesRound := by
  intro s rest rest' goes _
  refine .accept (Token.mark .lBracket) (fun s₁ shorter => ?_) (.give trivial)
  refine .andThen agree_expression fun key s₂ _ shorter' => ?_
  refine .andThen (agree_expect _ _) fun _ s₃ onward _ => ?_
  exact .andThen (goes () s₃ (by omega)) fun others s₄ _ _ => .give trivial

theorem bounded_indexes : Bounded indexesRound fun bound _ => indexes bound :=
  ⟨fun _ _ => rfl, fun _ _ _ => rfl⟩

theorem agree_setStatement (pos : Position) :
    Agree s (setStatement pos) (setStatement pos) (Shorter s) := by
  refine .andThen (agree_variableName _) fun name s₁ _ shorter => ?_
  refine .andThen (agree_expectTo name) fun _ s₂ onward _ => ?_
  exact .andThen agree_expression fun value s₃ _ _ => .give (by omega)

theorem agree_changeStatement (pos : Position) :
    Agree s (changeStatement pos) (changeStatement pos) (Shorter s) := by
  refine .position fun namePos => .andThen (agree_variableName _) fun name s₁ _ shorter => ?_
  refine .remaining (.andThen
    (guarded_indexesRound.agree bounded_indexes (Nat.le_refl _) ()) fun keys s₂ onward _ => ?_)
  refine .andThen (agree_expectTo name) fun _ s₃ onward' _ => ?_
  refine .andThen agree_expression fun value s₄ onward'' _ => ?_
  split <;> exact .give (by omega)

theorem agree_expectDo (kind : BlockKind) :
    Agree s (expectDo kind) (expectDo kind) (Shorter s) :=
  .andThen (agree_expect _ _) fun _ _ _ shorter => agree_endOfLine.past shorter

theorem agree_returnStatement (pos : Position) :
    Agree s (returnStatement pos) (returnStatement pos) fun _ _ => True := by
  refine .isNext Token.newline fun found => ?_
  cases found with
  | true => exact .give trivial
  | false => exact .andThen agree_expression fun value s₁ _ _ => .give trivial

theorem agree_onOneLine {read : Reader Stmt} {Q : Stmt → Nat → Prop} (reads : Agree s read read Q) :
    Agree s (onOneLine read) (onOneLine read) fun _ _ => True :=
  .andThen reads fun _ _ _ _ => .andThen agree_endOfLine fun _ _ _ _ => .give trivial

theorem guarded_parametersRound : Guarded Fewer parametersRound := by
  intro s rest rest' goes _
  refine .andThen (agree_expectName _) fun first s₁ _ shorter => ?_
  refine .accept (Token.mark .comma) (fun s₂ shorter' => ?_) ?_
  · exact .andThen (goes () s₂ (by omega)) fun others s₃ _ _ => .give (by omega)
  · refine .peek fun t? next => ?_
    split
    · exact .fail _
    · exact .give shorter

theorem bounded_parameters : Bounded parametersRound fun bound _ => parameters bound :=
  ⟨fun _ _ => rfl, fun _ _ _ => rfl⟩

section Statements

variable {inner inner' : Reader Stmt} (inside : Alike Fewer n inner inner')
include inside

theorem agree_blockRound (kind : BlockKind) {rest rest' : Unit → Reader (List Stmt)}
    (short : s.ahead.length < n) (goes : Alike Anyhow s.ahead.length (rest ()) (rest' ())) :
    Agree s (blockRound inner kind rest ()) (blockRound inner' kind rest' ()) fun _ _ => True := by
  refine .andThen agree_skipNewlines fun _ s₁ onward _ => .peek fun t? next => ?_
  split
  · exact .advance next fun _ _ => .give trivial
  · exact .fail _
  · split
    · exact .give trivial
    · refine .andThen (inside s₁ (by omega)) fun first s₂ _ shorter => ?_
      exact .andThen (goes s₂ (by omega)) fun others s₃ _ _ => .give trivial

theorem alike_block (kind : BlockKind) : Alike Anyhow n (block inner kind) (block inner' kind) := by
  have body (bound : Nat) :
      Alike Anyhow n (blockBody inner kind bound) (blockBody inner' kind bound) := by
    induction bound with
    | zero => exact fun s _ => .fail _
    | succ bound ih =>
        intro s short
        change Agree s (blockRound inner kind (fun _ => blockBody inner kind bound) ())
          (blockRound inner' kind (fun _ => blockBody inner' kind bound) ()) _
        exact agree_blockRound inside kind short (ih.mono (Nat.le_of_lt short))
  exact fun s short => .remaining (body _ s short)

theorem agree_conditionalRound {rest rest' : Position → Reader Stmt} (pos : Position)
    (short : s.ahead.length < n) (goes : ∀ pos, Alike Fewer s.ahead.length (rest pos) (rest' pos)) :
    Agree s (conditionalRound inner rest pos) (conditionalRound inner' rest' pos) (Shorter s) := by
  refine .andThen agree_expression fun condition s₁ _ shorter => ?_
  refine .andThen (agree_expectDo _) fun _ s₂ onward₂ _ => ?_
  refine .andThen (alike_block inside _ s₂ (by omega)) fun onTrue s₃ onward₃ _ => ?_
  refine .accept (Token.word .elseWord) (fun s₄ onward₄ => .position fun elsePos => ?_) ?_
  · refine .accept (Token.word .ifWord) (fun s₅ onward₅ => ?_) ?_
    · exact .andThen (goes elsePos s₅ (by omega)) fun chained s₆ _ _ => .give (by omega)
    · refine .andThen (agree_expectDo _) fun _ s₅ onward₅ _ => ?_
      refine .andThen (alike_block inside _ s₅ (by omega)) fun onFalse s₆ onward₆ _ => ?_
      refine .isNext (Token.word .elseWord) fun found => ?_
      cases found with
      | true => exact .never (.fail _)
      | false => exact .andThen agree_endOfLine fun _ s₇ _ _ => .give (by omega)
  · exact .andThen agree_endOfLine fun _ s₄ _ _ => .give (by omega)

theorem alike_conditional (bound : Nat) (pos : Position) :
    Alike Fewer n (conditional inner bound pos) (conditional inner' bound pos) := by
  induction bound generalizing pos with
  | zero => exact fun s _ => .peek fun t? next => .fail _
  | succ bound ih =>
      exact fun s short => agree_conditionalRound inside pos short fun pos =>
        (ih pos).mono (Nat.le_of_lt short)

theorem alike_repeatStatement (pos : Position) :
    Alike Fewer n (repeatStatement inner pos) (repeatStatement inner' pos) := by
  intro s short
  refine .andThen agree_expression fun count s₁ _ shorter => ?_
  refine .andThen (agree_expect _ _) fun _ s₂ onward₂ _ => ?_
  refine .andThen (agree_expectDo _) fun _ s₃ onward₃ _ => ?_
  refine .andThen (alike_block inside _ s₃ (by omega)) fun body s₄ onward₄ _ => ?_
  exact .andThen agree_endOfLine fun _ s₅ _ _ => .give (by omega)

theorem alike_forEachStatement (pos : Position) :
    Alike Fewer n (forEachStatement inner pos) (forEachStatement inner' pos) := by
  intro s short
  refine .andThen (agree_expect _ _) fun _ s₁ _ shorter => ?_
  refine .andThen (agree_expectName _) fun element s₂ onward₂ _ => ?_
  refine .andThen (agree_expect _ _) fun _ s₃ onward₃ _ => ?_
  refine .andThen agree_expression fun iterable s₄ onward₄ _ => ?_
  refine .andThen (agree_expectDo _) fun _ s₅ onward₅ _ => ?_
  refine .andThen (alike_block inside _ s₅ (by omega)) fun body s₆ onward₆ _ => ?_
  exact .andThen agree_endOfLine fun _ s₇ _ _ => .give (by omega)

theorem alike_plainBlock (pos : Position) :
    Alike Anyhow n (plainBlock inner pos) (plainBlock inner' pos) := by
  intro s short
  refine .andThen agree_endOfLine fun _ s₁ onward _ => ?_
  refine .andThen (alike_block inside _ s₁ (by omega)) fun body s₂ _ _ => ?_
  exact .andThen agree_endOfLine fun _ s₃ _ _ => .give trivial

theorem alike_functionStatement (topLevel : Bool) (pos : Position) :
    Alike Fewer n (functionStatement inner topLevel pos)
      (functionStatement inner' topLevel pos) := by
  intro s short
  refine .andThen (agree_expectName _) fun name s₁ _ shorter => ?_
  cases topLevel with
  | false => exact .never (.throw _)
  | true =>
      have behind (params : List String) (s' : Stream Token)
          (onward : s'.ahead.length < s.ahead.length) :
          Agree s'
            (do
              expectDo .functionBody
              let body ← block inner .functionBody
              endOfLine
              return Stmt.function name params body pos)
            (do
              expectDo .functionBody
              let body ← block inner' .functionBody
              endOfLine
              return Stmt.function name params body pos) (Shorter s) := by
        refine .andThen (agree_expectDo _) fun _ s₁ onward₁ _ => ?_
        refine .andThen (alike_block inside _ s₁ (by omega)) fun body s₂ onward₂ _ => ?_
        exact .andThen agree_endOfLine fun _ s₃ _ _ => .give (by omega)
      refine .accept (Token.word .withWord) (fun s₂ shorter' => ?_) ?_
      · refine .isNext (Token.word .doWord) fun _ => .isNext Token.newline fun _ => ?_
        refine .remaining (.andThen
          (guarded_parametersRound.agree bounded_parameters (Nat.le_refl _) ()) ?_)
        exact fun params s₃ onward _ => behind params s₃ (by omega)
      · refine .isNext (Token.word .doWord) fun _ => .isNext Token.newline fun _ => ?_
        dsimp only
        rw [if_neg Bool.false_ne_true, if_neg Bool.false_ne_true]
        split
        · exact behind [] s₁ shorter
        · exact .never (.fail _)

end Statements

theorem guarded_statementRound : Guarded Fewer statementRound := by
  intro s rest rest' goes topLevel
  have inside : Alike Fewer s.ahead.length (rest false) (rest' false) := goes false
  refine .position fun pos => .peek fun t? next => ?_
  split
  case h_1 =>
    exact .advance next fun s₁ shorter => (agree_onOneLine (agree_setStatement pos)).past shorter
  case h_2 =>
    exact .advance next fun s₁ shorter => (agree_onOneLine (agree_changeStatement pos)).past shorter
  case h_3 =>
    refine .advance next fun s₁ shorter => (agree_onOneLine (Q := fun _ _ => True) ?_).past shorter
    exact .andThen agree_expression fun value s₂ _ _ => .give trivial
  case h_4 =>
    refine .advance next fun s₁ shorter => .remaining ?_
    exact (alike_conditional inside _ pos s₁ shorter).past shorter
  case h_5 =>
    exact .advance next fun s₁ shorter => (alike_repeatStatement inside pos s₁ shorter).past shorter
  case h_6 =>
    exact .advance next fun s₁ shorter =>
      (alike_forEachStatement inside pos s₁ shorter).past shorter
  case h_7 =>
    exact .advance next fun s₁ shorter => (alike_plainBlock inside pos s₁ shorter).past shorter
  case h_8 =>
    exact .advance next fun s₁ shorter =>
      (alike_functionStatement inside topLevel pos s₁ shorter).past shorter
  case h_9 =>
    exact .advance next fun s₁ shorter => (agree_onOneLine (agree_returnStatement pos)).past shorter
  case h_13 =>
    refine .andThen (P := Shorter s) ?_ fun value s₁ _ shorter => ?_
    · exact .andThen agree_expression fun value s₁ _ shorter => .give shorter
    · exact .andThen agree_endOfLine fun _ s₂ _ _ => .give (by omega)
  all_goals
    refine .advance next fun s₁ shorter => (agree_onOneLine (Q := fun _ _ => True) ?_).past shorter
    exact .give trivial

theorem bounded_statement : Bounded statementRound statement :=
  ⟨fun _ _ => rfl, fun _ _ _ => rfl⟩

theorem advances_statement (bound : Nat) (topLevel : Bool) : Advances (statement bound topLevel) :=
  guarded_statementRound.advances bounded_statement
    (fun _ => advances_of_agree fun _ => .peek fun _ _ => .fail _) bound topLevel

theorem guarded_statementsRound : Guarded (fun _ after => after = 0) statementsRound := by
  intro s rest rest' goes _
  refine .atEnd (fun ended => .give (List.length_eq_zero_iff.mpr ended)) fun _ => ?_
  refine .accept Token.newline (goes ()) (.remaining ?_)
  refine .andThen ((advances_statement _ true).agree s) fun first s₁ _ shorter => ?_
  exact .andThen (goes () s₁ shorter) fun others s₂ _ ended => .give ended

theorem bounded_statements : Bounded statementsRound fun bound _ => statements bound :=
  ⟨fun _ _ => rfl, fun _ _ _ => rfl⟩

/-! ### The parser -/

/-- The operators and operands of the levels of expressions, from the tightest to the loosest. -/
def levels (inner : Reader Expr) : List (Reader (Option (Expr → Expr → Expr)) × Reader Expr) :=
  [(binaryOp? factorOp?, do unary inner (← remaining)),
    (binaryOp? termOp?, factor inner),
    (binaryOp? comparisonOp?, term inner),
    (equalityOp?, comparison inner),
    (logicalOp? .andWord .and, equality inner),
    (logicalOp? .orWord .or, conjunction inner)]

/-- Every loop and every recursion of the parser ends on every stream, where the readers that it is
given read tokens. -/
structure EveryLoopEnds : Prop where
  newlines : Terminates newlinesRound fun bound _ => skipNewlinesTo bound
  items {α : Type} (item : Reader α) : Advances item →
    Terminates (commaRound item) fun bound _ => commaSeparated item bound
  prefixes (inner : Reader Expr) : Advances inner →
    Terminates (unaryRound inner) fun bound _ => unary inner bound
  indexing (inner : Reader Expr) : Advances inner →
    Terminates (postfixRound (indexing? inner)) (chainPostfix (indexing? inner))
  operators (inner : Reader Expr) : Advances inner → ∀ level ∈ levels inner,
    Terminates (leftRound level.1 level.2) (chainLeft level.1 level.2)
  expressions : Terminates expressionRound fun bound _ => nested bound
  keys : Terminates indexesRound fun bound _ => indexes bound
  names : Terminates parametersRound fun bound _ => parameters bound
  blocks (inner : Reader Stmt) (kind : BlockKind) : Advances inner →
    Terminates (blockRound inner kind) fun bound _ => blockBody inner kind bound
  branches (inner : Reader Stmt) : Advances inner →
    Terminates (conditionalRound inner) (conditional inner)
  nesting : Terminates statementRound statement
  program : Terminates statementsRound fun bound _ => statements bound

section Loops

variable {item : Reader α} {inner : Reader Expr} {body : Reader Stmt}

theorem terminates_commaSeparated (advances : Advances item) :
    Terminates (commaRound item) fun bound _ => commaSeparated item bound := by
  have bounded : Bounded (commaRound item) fun bound _ => commaSeparated item bound := by
    refine ⟨fun _ _ => rfl, fun _ last stop => ?_⟩
    obtain ⟨mistake, s', failed⟩ := advances.fails last stop
    exact (bind_error failed).trans (bind_error failed).symm
  have guarded : Guarded Fewer (commaRound item) :=
    fun s _ _ goes _ => agree_commaRound (advances.agree s) (goes ())
  exact guarded.terminates bounded

theorem terminates_unary (advances : Advances inner) :
    Terminates (unaryRound inner) fun bound _ => unary inner bound := by
  have bounded : Bounded (unaryRound inner) fun bound _ => unary inner bound :=
    ⟨fun _ _ => rfl, fun _ _ _ => rfl⟩
  have guarded : Guarded Fewer (unaryRound inner) :=
    fun s _ _ goes _ => agree_unaryRound (advances.alike _) (Nat.lt_succ_self _) (goes ())
  exact guarded.terminates bounded

theorem probes_indexing? (advances : Advances inner) (object : Expr) :
    Probes (indexing? inner object) :=
  probes_of_agree
    (fun _ => agree_indexing (advances.alike _) object (Nat.lt_succ_self _)) fun _ _ => rfl

theorem forall_levels (advances : Advances inner) :
    ∀ level ∈ levels inner, Probes level.1 ∧ Advances level.2 := by
  have inside (n : Nat) : Alike Fewer n inner inner := advances.alike n
  have whole {x : Reader Expr} (alike : ∀ n, Alike Fewer (n + 1) x x) : Advances x :=
    advances_of_alike fun n => (alike n).mono (Nat.le_succ n)
  simp only [levels, List.forall_mem_cons, List.not_mem_nil, false_implies, implies_true, and_true]
  exact ⟨⟨probes_binaryOp? _, whole fun n => alike_operand (inside n)⟩,
    ⟨probes_binaryOp? _, whole fun n => alike_factor (inside n)⟩,
    ⟨probes_binaryOp? _, whole fun n => alike_term (inside n)⟩,
    ⟨probes_equalityOp?, whole fun n => alike_comparison (inside n)⟩,
    ⟨probes_logicalOp? _ _, whole fun n => alike_equality (inside n)⟩,
    ⟨probes_logicalOp? _ _, whole fun n => alike_conjunction (inside n)⟩⟩

theorem terminates_block (advances : Advances body) (kind : BlockKind) :
    Terminates (blockRound body kind) fun bound _ => blockBody body kind bound := by
  have bounded : Bounded (blockRound body kind) fun bound _ => blockBody body kind bound :=
    ⟨fun _ _ => rfl, fun _ _ _ => rfl⟩
  have guarded : Guarded Anyhow (blockRound body kind) :=
    fun s _ _ goes _ => agree_blockRound (advances.alike _) kind (Nat.lt_succ_self _) (goes ())
  exact guarded.terminates bounded

theorem terminates_conditional (advances : Advances body) :
    Terminates (conditionalRound body) (conditional body) := by
  have bounded : Bounded (conditionalRound body) (conditional body) :=
    ⟨fun _ _ => rfl, fun _ _ _ => rfl⟩
  have guarded : Guarded Fewer (conditionalRound body) :=
    fun s _ _ goes pos => agree_conditionalRound (advances.alike _) pos (Nat.lt_succ_self _) goes
  exact guarded.terminates bounded

end Loops

theorem everyLoopEnds : EveryLoopEnds where
  newlines := guarded_newlinesRound.terminates bounded_skipNewlinesTo
  items _ advances := terminates_commaSeparated advances
  prefixes _ advances := terminates_unary advances
  indexing _ advances := terminates_chainPostfix (probes_indexing? advances)
  operators _ advances level member := by
    obtain ⟨probes, advances⟩ := forall_levels advances level member
    exact terminates_chainLeft probes advances
  expressions := guarded_expressionRound.terminates bounded_nested
  keys := guarded_indexesRound.terminates bounded_indexes
  names := guarded_parametersRound.terminates bounded_parameters
  blocks _ kind advances := terminates_block advances kind
  branches _ advances := terminates_conditional advances
  nesting := guarded_statementRound.terminates bounded_statement
  program := guarded_statementsRound.terminates bounded_statements

theorem getsOn : GetsOn expression nested statement (do statements (← remaining)) := by
  have program (s : Stream Token) : Agree s (do statements (← remaining))
      (do statements (← remaining)) fun _ after => after = 0 :=
    .remaining (guarded_statementsRound.agree bounded_statements (Nat.le_refl _) ())
  exact
    { expression := advances_expression
      nested := advances_nested
      statement := advances_statement
      onward s := (program s).onward
      consumed s _ _ ran := List.length_eq_zero_iff.mp ((program s).fits ran) }

end Reader
end Walkthrough.JikiScript
