import Walkthrough.Json
import Walkthrough.Text.Position

/-! Why a run stops: the causes of runtime failures, with the name, the message and the details
under which each is reported. -/

namespace Walkthrough

/-- One of the two operands of an operator. -/
inductive Side where
  | left
  | right
deriving DecidableEq, Repr

def Side.name : Side → String
  | .left => "left"
  | .right => "right"

/-- A cause. Everything in it is text or a number, fixed when the failure happened. -/
inductive Fault where
  | notDeclared (name : String)
  | alreadyDeclared (name : String)
  | notAccessibleInFunction (name : String)
  | shadowingDisabled (name : String)
  | assignmentToConstant (name : String)
  | coercionNotAllowed (operator : String) (left right : Option String)
  | comparisonNeedsNumber (operator : String) (side : Side) (typeName : String)
  | operandNotNumber (value : String)
  | truthinessDisabled (typeName : String)
  | strictEqualityRequired (operator : String)
  | cannotCompareLists
  | wrongArgumentCount (function expected : String) (got : Nat)
  | hostFailure (function message : String)
  | logicFailure (message : String)
  | functionNotFound (name : String)
  | functionAlreadyDefined (name : String)
  | nestedFunction (name : String)
  | duplicateParameter (parameter : String)
  | returnOutsideFunction
  | breakOutsideLoop
  | continueOutsideLoop (lexeme : String)
  | notIterable (value : String)
  | ofTargetNotIterable (typeName : String)
  | repeatCountNotNumber (value : String)
  | repeatCountNegative (count : String)
  | repeatCountNotWhole (count : String)
  | repeatCountTooHigh (count : String) (max : Nat)
  | indexNotNumber (typeName : String)
  | indexNotWhole (index : String)
  | indexZero
  | indexOutsideOnRead (index : Int) (length : Nat) (dataType : String)
  | indexOutsideOnWrite (index : Int) (length : Nat) (dataType : String)
  | cannotIndex (typeName : String)
  | keyNotFound (key : String)
  | propertyNotFound (property : String)
  | targetNotModifiable
  | infiniteRecursion (name : String)
  | tooManyIterations (max : Nat)
  | outOfTime (max : Nat)
deriving DecidableEq, Repr

namespace Fault

/-- The name under which a cause is reported. -/
def kind : Fault → String
  | .notDeclared _ => "VariableNotDeclared"
  | .alreadyDeclared _ => "VariableAlreadyDeclared"
  | .notAccessibleInFunction _ => "VariableNotAccessibleInFunction"
  | .shadowingDisabled _ => "ShadowingDisabled"
  | .assignmentToConstant _ => "AssignmentToConstant"
  | .coercionNotAllowed .. => "TypeCoercionNotAllowed"
  | .comparisonNeedsNumber .. => "ComparisonRequiresNumber"
  | .operandNotNumber _ => "OperandMustBeNumber"
  | .truthinessDisabled _ => "TruthinessDisabled"
  | .strictEqualityRequired _ => "StrictEqualityRequired"
  | .cannotCompareLists => "TypeErrorCannotCompareListObjects"
  | .wrongArgumentCount .. => "InvalidNumberOfArguments"
  | .hostFailure .. => "FunctionExecutionError"
  | .logicFailure _ => "LogicErrorInExecution"
  | .functionNotFound _ => "FunctionNotFound"
  | .functionAlreadyDefined _ => "FunctionAlreadyDefined"
  | .nestedFunction _ => "NestedFunctionDeclaration"
  | .duplicateParameter _ => "DuplicateParameterName"
  | .returnOutsideFunction => "ReturnOutsideFunction"
  | .breakOutsideLoop => "BreakOutsideLoop"
  | .continueOutsideLoop _ => "ContinueOutsideLoop"
  | .notIterable _ => "ForeachNotIterable"
  | .ofTargetNotIterable _ => "ForOfLoopTargetNotIterable"
  | .repeatCountNotNumber _ => "RepeatCountMustBeNumber"
  | .repeatCountNegative _ => "RangeErrorRepeatCountMustBeNonNegative"
  | .repeatCountNotWhole _ => "RangeErrorRepeatCountMustBeInteger"
  | .repeatCountTooHigh .. => "RangeErrorRepeatCountTooHighForExecution"
  | .indexNotNumber _ => "IndexMustBeNumber"
  | .indexNotWhole _ => "IndexMustBeInteger"
  | .indexZero => "RangeErrorArrayIndexIsZeroBased"
  | .indexOutsideOnRead .. => "IndexOutOfBoundsInGet"
  | .indexOutsideOnWrite .. => "IndexOutOfBoundsInChange"
  | .cannotIndex _ => "TypeErrorCannotIndex"
  | .keyNotFound _ => "KeyNotFound"
  | .propertyNotFound _ => "PropertyNotFound"
  | .targetNotModifiable => "InvalidChangeTargetNotModifiable"
  | .infiniteRecursion _ => "StateErrorInfiniteRecursionDetectedInFunction"
  | .tooManyIterations _ => "MaxIterationsReached"
  | .outOfTime _ => "MaxTotalExecutionTimeReached"

/-- What follows the name in a message: the details that learners are shown. -/
def details : Fault → String
  | .notDeclared name => ": name: " ++ name
  | .alreadyDeclared name => ": name: " ++ name
  | .notAccessibleInFunction name => ": name: " ++ name
  | .shadowingDisabled name => ": name: " ++ name
  | .assignmentToConstant name => ": name: " ++ name
  | .coercionNotAllowed operator left right =>
    ": operator: " ++ operator ++ (left.map (": left: " ++ ·)).getD ""
      ++ (right.map (": right: " ++ ·)).getD ""
  | .comparisonNeedsNumber operator side typeName =>
    ": operator: " ++ operator ++ ": " ++ side.name ++ ": " ++ typeName
  | .operandNotNumber value => ": value: " ++ value
  | .truthinessDisabled typeName => ": value: " ++ typeName
  | .strictEqualityRequired operator => ": operator: " ++ operator
  | .cannotCompareLists => ""
  | .wrongArgumentCount function expected got =>
    ": function: " ++ function ++ ": expected: " ++ expected ++ ": got: " ++ Number.digits got
  | .hostFailure function message => ": function: " ++ function ++ ": message: " ++ message
  | .logicFailure _ => ""
  | .functionNotFound name => ": name: " ++ name
  | .functionAlreadyDefined name => ": name: " ++ name
  | .nestedFunction name => ": name: " ++ name
  | .duplicateParameter parameter => ": parameter: " ++ parameter
  | .returnOutsideFunction => ""
  | .breakOutsideLoop => ""
  | .continueOutsideLoop lexeme => ": lexeme: " ++ lexeme
  | .notIterable value => ": value: " ++ value
  | .ofTargetNotIterable typeName => ": type: " ++ typeName
  | .repeatCountNotNumber value => ": value: " ++ value
  | .repeatCountNegative count => ": count: " ++ count
  | .repeatCountNotWhole count => ": count: " ++ count
  | .repeatCountTooHigh count max => ": count: " ++ count ++ ", max: " ++ Number.digits max
  | .indexNotNumber typeName => ": type: " ++ typeName
  | .indexNotWhole index => ": index: " ++ index
  | .indexZero => ""
  | .indexOutsideOnRead index length dataType =>
    ": index: " ++ Number.integerText index ++ ", length: " ++ Number.digits length
      ++ ", dataType: " ++ dataType
  | .indexOutsideOnWrite index length dataType =>
    ": index: " ++ Number.integerText index ++ ", length: " ++ Number.digits length
      ++ ", dataType: " ++ dataType
  | .cannotIndex typeName => ": type: " ++ typeName
  | .keyNotFound key => ": key: " ++ key
  | .propertyNotFound property => ": property: " ++ property
  | .targetNotModifiable => ""
  | .infiniteRecursion name => ": name: " ++ name
  | .tooManyIterations max => ": max: " ++ Number.digits max
  | .outOfTime max => ": max: " ++ Number.digits max

/-- The message of a cause: its name and details, except that a logic failure speaks for itself. -/
def message : Fault → String
  | .logicFailure message => message
  | fault => fault.kind ++ fault.details

def named (name : String) : Json := Json.object [("name", .str name)]

def context : Fault → Json
  | .notDeclared name => named name
  | .alreadyDeclared name => named name
  | .notAccessibleInFunction name => named name
  | .shadowingDisabled name => named name
  | .assignmentToConstant name => named name
  | .coercionNotAllowed operator left right =>
    Json.object [("operator", .str operator), ("left", Json.optional .str left),
      ("right", Json.optional .str right)]
  | .comparisonNeedsNumber operator side typeName =>
    Json.object [("operator", .str operator), (side.name, .str typeName)]
  | .operandNotNumber value => Json.object [("value", .str value)]
  | .truthinessDisabled typeName => Json.object [("value", .str typeName)]
  | .strictEqualityRequired operator => Json.object [("operator", .str operator)]
  | .cannotCompareLists => .obj []
  | .wrongArgumentCount function expected got =>
    Json.object [("function", .str function), ("expected", .str expected), ("got", .nat got)]
  | .hostFailure function message =>
    Json.object [("function", .str function), ("message", .str message)]
  | .logicFailure message => Json.object [("message", .str message)]
  | .functionNotFound name => named name
  | .functionAlreadyDefined name => named name
  | .nestedFunction name => named name
  | .duplicateParameter parameter => Json.object [("parameter", .str parameter)]
  | .returnOutsideFunction => .obj []
  | .breakOutsideLoop => .obj []
  | .continueOutsideLoop lexeme => Json.object [("lexeme", .str lexeme)]
  | .notIterable value => Json.object [("value", .str value)]
  | .ofTargetNotIterable typeName => Json.object [("value", .str typeName)]
  | .repeatCountNotNumber value => Json.object [("value", .str value)]
  | .repeatCountNegative count => Json.object [("count", .str count)]
  | .repeatCountNotWhole count => Json.object [("count", .str count)]
  | .repeatCountTooHigh count max => Json.object [("count", .str count), ("max", .nat max)]
  | .indexNotNumber typeName => Json.object [("value", .str typeName)]
  | .indexNotWhole index => Json.object [("index", .str index)]
  | .indexZero => .obj []
  | .indexOutsideOnRead index length dataType =>
    Json.object [("index", .int index), ("length", .nat length), ("dataType", .str dataType)]
  | .indexOutsideOnWrite index length dataType =>
    Json.object [("index", .int index), ("length", .nat length), ("dataType", .str dataType)]
  | .cannotIndex typeName => Json.object [("value", .str typeName)]
  | .keyNotFound key => Json.object [("key", .str key)]
  | .propertyNotFound property => Json.object [("property", .str property)]
  | .targetNotModifiable => .obj []
  | .infiniteRecursion name => named name
  | .tooManyIterations max => Json.object [("max", .nat max)]
  | .outOfTime max => Json.object [("max", .nat max)]

def toJson (fault : Fault) : Json :=
  Json.object
    [("error", .str fault.kind), ("message", .str fault.message), ("context", fault.context)]

end Fault

/-- A cause and the node that raised it. -/
structure Failure where
  fault : Fault
  position : Position
deriving DecidableEq, Repr

end Walkthrough
