import Frontend.Decl.Basic
import Frontend.Event
import Frontend.Typing.Overloads

/-!
# Annotators

What is known while a tree is annotated: the variables of the function at hand, the
overloads of the whole module, and which function it is.

Variables live in one flat scope per function.  A declaration hides an earlier one of the
same name.
-/

namespace Frontend

/-- What is known while a tree is annotated. -/
structure Annotator where
  /-- The variables in scope, the latest declaration first. -/
  scope : List (String × TypeName)
  /-- The functions and operators that can be applied. -/
  overloads : Overloads
  /-- Name and return type of the function whose body is being annotated. -/
  function : Option (String × TypeName)

namespace Annotator

/-- An annotator that knows the operators of the language and nothing else. -/
def initial : Annotator :=
  ⟨[], .builtin, none⟩

/-- Brings a variable into scope. -/
def declare (annotator : Annotator) (name : String) (type : TypeName) : Annotator :=
  { annotator with scope := (name, type) :: annotator.scope }

/-- Forgets all variables. -/
def clearVariables (annotator : Annotator) : Annotator :=
  { annotator with scope := [] }

/-- The type of a variable in scope. -/
def variableType (annotator : Annotator) (name : String) : Except Error TypeName :=
  match annotator.scope.lookup name with
  | some type => .ok type
  | none => .error (.variableNotDeclared name)

/-- Brings a parameter into scope.  It must not have the name of a variable that is. -/
def declareParam (annotator : Annotator) (function : String) (param : Param) :
    Except Error Annotator :=
  if (annotator.scope.lookup param.name).isSome then
    .error (.parameterRedefinition function param.name)
  else .ok (annotator.declare param.name param.type)

/-- Brings parameters into scope one by one, up to the first that cannot be. -/
def declareParams (function : String) : List Param → Annotator → Annotator × Except Error Unit
  | [], annotator => (annotator, .ok ())
  | param :: params, annotator =>
    match annotator.declareParam function param with
    | .ok annotator => declareParams function params annotator
    | .error error => (annotator, .error error)

/-- Adds an overload, with an event that tells of it.  The name has an entry from then on.  An
overload that is there already is not added again, and one with the same arguments and another
return type is refused. -/
def register (annotator : Annotator) (name : String) (signature : Signature) :
    Annotator × List Event × Except Error Unit :=
  let annotator := { annotator with overloads := annotator.overloads.enter name }
  match annotator.overloads.returnType? name signature.argTypes with
  | some existing =>
    if existing == signature.returnType then (annotator, [], .ok ())
    else
      (annotator, [], .error (.conflictingOverload name (TypeName.list signature.argTypes) existing
        signature.returnType))
  | none =>
    ({ annotator with overloads := annotator.overloads.add name signature },
      [.registered name signature], .ok ())

/-- The return type of the overload that an application picks. -/
def resolve (annotator : Annotator) (name : String) (argTypes : List TypeName) :
    Except Error TypeName :=
  annotator.overloads.resolve name argTypes

end Annotator

end Frontend
