import Frontend.Text.Quoted

/-!
# Errors

Why a source is refused.  Work stops at the first fault, so there is never more than
one.  Each error has a name, belongs to a category, and has a message that begins with
the category.
-/

namespace Frontend

/-- A fault of a source, with what its message tells about it. -/
inductive Error where
  /-- Another token was expected at this place. -/
  | unexpectedToken (expected found : String)
  /-- The text of a literal denotes no value of its type. -/
  | invalidLiteral (kind literal : String)
  /-- The source nests deeper than is allowed. -/
  | nestingTooDeep (limit : Nat)
  /-- No declaration of the variable has been seen in the function. -/
  | variableNotDeclared (name : String)
  /-- The function or operator has no overload at all. -/
  | functionNotDeclared (function : String)
  /-- The function or operator has overloads, none of them for these types. -/
  | noMatchingOverload (function argTypes : String)
  /-- The value assigned is not of the variable's type. -/
  | assignmentTypeMismatch (name expected received : String)
  /-- A condition is not of the type of truth values. -/
  | conditionNotBool (received : String)
  /-- A value returned is not of the function's return type. -/
  | returnTypeMismatch (function expected received : String)
  /-- Two parameters of one function have the same name. -/
  | parameterRedefinition (function parameter : String)
  /-- An overload is declared again with another return type. -/
  | conflictingOverload (function argTypes existing received : String)
  deriving DecidableEq

namespace Error

/-- The families of faults. -/
inductive Category where
  | malformed
  | unresolvedReference
  | overloadResolution
  | typeMismatch
  | declarationConflict
  deriving DecidableEq

/-- The family as messages name it. -/
def Category.name : Category → String
  | .malformed => "syntax error"
  | .unresolvedReference => "unresolved reference"
  | .overloadResolution => "overload resolution failure"
  | .typeMismatch => "type mismatch"
  | .declarationConflict => "declaration conflict"

/-- The family a fault belongs to. -/
def category : Error → Category
  | .unexpectedToken .. | .invalidLiteral .. | .nestingTooDeep .. => .malformed
  | .variableNotDeclared .. => .unresolvedReference
  | .functionNotDeclared .. | .noMatchingOverload .. => .overloadResolution
  | .assignmentTypeMismatch .. | .conditionNotBool .. | .returnTypeMismatch .. => .typeMismatch
  | .parameterRedefinition .. | .conflictingOverload .. => .declarationConflict

/-- The name of the fault in reports. -/
def name : Error → String
  | .unexpectedToken .. => "UnexpectedToken"
  | .invalidLiteral .. => "InvalidLiteral"
  | .nestingTooDeep .. => "NestingTooDeep"
  | .variableNotDeclared .. => "VariableNotDeclared"
  | .functionNotDeclared .. => "FunctionNotDeclared"
  | .noMatchingOverload .. => "NoMatchingOverload"
  | .assignmentTypeMismatch .. => "AssignmentTypeMismatch"
  | .conditionNotBool .. => "ConditionNotBool"
  | .returnTypeMismatch .. => "ReturnTypeMismatch"
  | .parameterRedefinition .. => "ParameterRedefinition"
  | .conflictingOverload .. => "ConflictingOverload"

/-- What is wrong, without the category.  Texts of the source are quoted; types and
what was expected are not. -/
def detail : Error → String
  | .unexpectedToken expected found => "expected " ++ expected ++ ", found " ++ Text.quoted found
  | .invalidLiteral kind literal => "invalid " ++ kind ++ " literal " ++ Text.quoted literal
  | .nestingTooDeep limit => "nesting deeper than " ++ toString limit ++ " levels"
  | .variableNotDeclared name => "variable " ++ Text.quoted name ++ " not declared"
  | .functionNotDeclared function => "no function or operator named " ++ Text.quoted function
  | .noMatchingOverload function argTypes =>
    "no overload of " ++ Text.quoted function ++ " accepts (" ++ argTypes ++ ")"
  | .assignmentTypeMismatch name expected received =>
    "variable " ++ Text.quoted name ++ " is " ++ expected ++ " but rhs is " ++ received
  | .conditionNotBool received => "condition must be bool but is " ++ received
  | .returnTypeMismatch function expected received =>
    Text.quoted function ++ " returns " ++ expected ++ " but return value is " ++ received
  | .parameterRedefinition function parameter =>
    "redefinition of argument " ++ Text.quoted parameter ++ " in " ++ Text.quoted function
  | .conflictingOverload function argTypes existing received =>
    "overload " ++ Text.quoted function ++ "(" ++ argTypes ++ ") already returns " ++ existing ++
      ", redeclared as " ++ received

/-- The message: the category and what is wrong. -/
def message (error : Error) : String :=
  error.category.name ++ ": " ++ error.detail

end Error

end Frontend
