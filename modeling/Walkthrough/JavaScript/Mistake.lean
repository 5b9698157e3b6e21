import Walkthrough.JavaScript.Token

/-! What can be wrong with the text of a program in the JavaScript subset. -/

namespace Walkthrough.JavaScript

/-- What the grammar asks for at a place. -/
inductive Expected where
  | variableName
  | conditionStart
  | conditionEnd
  | blockEnd
  | forStart
  | forOfEnd
  | forInitEnd
  | forTestEnd
  | forUpdateEnd
  | functionName
  | parametersStart
  | parameterName
  | parametersEnd
  | bodyStart
  | ternaryColon
  | memberName
  | indexEnd
  | argumentsEnd
  | groupEnd
  | arrayEnd
  | propertyName
  | propertyColon
  | objectEnd
  | expression
deriving DecidableEq, Repr

/-- The name of the mistake of not writing it. -/
def Expected.mistakeName : Expected → String
  | .variableName => "MissingVariableName"
  | .conditionStart => "MissingLeftParenthesisBeforeCondition"
  | .conditionEnd => "MissingRightParenthesisAfterCondition"
  | .blockEnd => "MissingRightBraceAfterBlock"
  | .forStart => "MissingLeftParenthesisAfterFor"
  | .forOfEnd => "MissingRightParenthesisAfterForOf"
  | .forInitEnd => "MissingSemicolonAfterForInit"
  | .forTestEnd => "MissingSemicolonAfterForCondition"
  | .forUpdateEnd => "MissingRightParenthesisAfterForUpdate"
  | .functionName => "MissingFunctionName"
  | .parametersStart => "MissingLeftParenthesisBeforeParameters"
  | .parameterName => "MissingParameterName"
  | .parametersEnd => "MissingRightParenthesisAfterParameters"
  | .bodyStart => "MissingLeftBraceBeforeFunctionBody"
  | .ternaryColon => "MissingColonInTernary"
  | .memberName => "MissingPropertyNameAfterDot"
  | .indexEnd => "MissingRightBracketAfterIndex"
  | .argumentsEnd => "MissingRightParenthesisAfterArguments"
  | .groupEnd => "MissingRightParenthesisAfterExpression"
  | .arrayEnd => "MissingRightBracketAfterArrayElements"
  | .propertyName => "InvalidPropertyName"
  | .propertyColon => "MissingColonAfterPropertyName"
  | .objectEnd => "MissingRightBraceAfterObjectProperties"
  | .expression => "MissingExpression"

inductive Mistake where
  | unknownCharacter (c : Char)
  | unterminatedText (contents : String)
  | unterminatedComment
  | invalidNumber (text : String)
  | missing (expected : Expected) (found : String)
  | constWithoutValue (name : String)
  | nestedFunction (name : String)
  | invalidAssignmentTarget
  | invalidUpdateTarget
deriving DecidableEq, Repr

def Mistake.message : Mistake → String
  | .unknownCharacter c => "UnknownCharacter: character: " ++ String.ofList [c]
  | .unterminatedText contents => "MissingQuoteToTerminateString: string: " ++ contents
  | .unterminatedComment => "UnterminatedComment"
  | .invalidNumber text => "InvalidNumber: number: " ++ text
  | .missing expected found => expected.mistakeName ++ ": found: " ++ found
  | .constWithoutValue name => "MissingInitializerInConstDeclaration: name: " ++ name
  | .nestedFunction name => "NestedFunctionDeclaration: name: " ++ name
  | .invalidAssignmentTarget => "InvalidAssignmentTarget"
  | .invalidUpdateTarget => "InvalidUpdateTarget"

end Walkthrough.JavaScript
