import Walkthrough.JikiScript.Token

/-! What can be wrong with the text of a JikiScript program, in the learner's terms. -/

namespace Walkthrough.JikiScript

/-- The statements that open a block, as messages name them. -/
inductive BlockKind where
  | ifBranch
  | elseBranch
  | repeatBody
  | forBody
  | functionBody
  | plain
deriving DecidableEq, Repr

def BlockKind.name : BlockKind → String
  | .ifBranch => "if"
  | .elseBranch => "else"
  | .repeatBody => "repeat"
  | .forBody => "for"
  | .functionBody => "function"
  | .plain => "do"

inductive Mistake where
  | unknownCharacter (c : Char)
  | unterminatedText (contents : String)
  | numberContainsLetters (suggestion : String)
  | numberWithTwoPoints (suggestion : String)
  | numberEndsWithPoint (suggestion : String)
  | numberStartsWithZero (suggestion : String)
  | invalidNumber (text : String)
  | missingEndOfLine (previous : String)
  | numericName (name : String)
  | spaceInName (first second : String)
  | missingNameInSet
  | missingNameInChange
  | equalsForAssignment
  | missingTo (name : String)
  | missingRightBracketAfterIndex
  | missingDo (block : BlockKind)
  | missingEnd (block : BlockKind)
  | elseAfterElse
  | missingTimes
  | missingEach
  | missingElementName
  | missingIn
  | missingFunctionName
  | nestedFunction (name : String)
  | missingParameterName
  | missingCommaBetweenParameters
  | missingWith
  | equalsForEquality
  | missingRightParenAfterExpression
  | missingRightParenAfterCall
  | missingRightBracketAfterList
  | invalidDictionaryKey (found : String)
  | missingColon
  | missingRightBrace
  | missingExpression (found : String)
deriving DecidableEq, Repr

def Mistake.message : Mistake → String
  | .unknownCharacter c => "UnknownCharacter: character: " ++ String.ofList [c]
  | .unterminatedText contents => "MissingDoubleQuoteToTerminateString: string: " ++ contents
  | .numberContainsLetters suggestion => "NumberContainsAlpha: suggestion: " ++ suggestion
  | .numberWithTwoPoints suggestion =>
    "NumberWithMultipleDecimalPoints: suggestion: " ++ suggestion
  | .numberEndsWithPoint suggestion => "NumberEndsWithDecimalPoint: suggestion: " ++ suggestion
  | .numberStartsWithZero suggestion => "NumberStartsWithZero: suggestion: " ++ suggestion
  | .invalidNumber text => "InvalidNumber: number: " ++ text
  | .missingEndOfLine previous => "MissingEndOfLine: previous: " ++ previous
  | .numericName name => "InvalidNumericVariableName: name: " ++ name
  | .spaceInName first second =>
    "UnexpectedSpaceInIdentifier: first_half: " ++ first ++ ", second_half: " ++ second
  | .missingNameInSet => "MissingVariableNameInSetStatement"
  | .missingNameInChange => "MissingVariableNameInChangeStatement"
  | .equalsForAssignment => "UnexpectedEqualsForAssignmentUseSetInstead"
  | .missingTo name => "MissingToAfterVariableNameToInitializeValue: name: " ++ name
  | .missingRightBracketAfterIndex => "MissingRightBracketAfterFieldNameOrIndex"
  | .missingDo block => "MissingDoToStartBlock: type: " ++ block.name
  | .missingEnd block => "MissingEndAfterBlock: type: " ++ block.name
  | .elseAfterElse => "UnexpectedElseAfterElseBlock"
  | .missingTimes => "MissingTimesInRepeat"
  | .missingEach => "MissingEachAfterForKeyword"
  | .missingElementName => "MissingElementNameAfterForeachKeyword"
  | .missingIn => "MissingInAfterElementNameInForeach"
  | .missingFunctionName => "MissingFunctionNameInDeclaration"
  | .nestedFunction name => "NestedFunctionDeclaration: name: " ++ name
  | .missingParameterName => "MissingParameterNameInFunctionDeclaration"
  | .missingCommaBetweenParameters => "MissingCommaBetweenFunctionParameters"
  | .missingWith => "MissingWithBeforeParametersInFunction"
  | .equalsForEquality => "UnexpectedEqualsForEquality"
  | .missingRightParenAfterExpression => "MissingRightParenthesisAfterExpression"
  | .missingRightParenAfterCall => "MissingRightParenthesisAfterFunctionCall"
  | .missingRightBracketAfterList => "MissingRightBracketAfterListElements"
  | .invalidDictionaryKey found => "InvalidDictionaryKey: found: " ++ found
  | .missingColon => "MissingColonAfterDictionaryKey"
  | .missingRightBrace => "MissingRightBraceAfterDictionaryElements"
  | .missingExpression found => "MissingExpression: found: " ++ found

end Walkthrough.JikiScript
