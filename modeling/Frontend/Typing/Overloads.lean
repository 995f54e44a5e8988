import Frontend.Error
import Frontend.Typing.Signature

/-!
# Overloads

The functions and operators that can be applied.  A name can have several overloads, which
differ in their argument types.  `Overloads` is a table with an entry for each name, which
lists the overloads of the name in the order in which they were added; a new annotator has
entries for the operators of the language.
-/

namespace Frontend

/-- The names that can be applied, each with its overloads. -/
abbrev Overloads := List (String × List Signature)

namespace Overloads

/-- The overloads of one name, none if it has no entry. -/
def named (overloads : Overloads) (name : String) : List Signature :=
  (overloads.lookup name).getD []

/-- The table with another list of overloads for one name.  A new name comes last. -/
def set (name : String) (signatures : List Signature) : Overloads → Overloads
  | [] => [(name, signatures)]
  | (other, others) :: entries =>
    if other == name then (name, signatures) :: entries
    else (other, others) :: set name signatures entries

/-- The table with an entry for the name, which is empty if there was none. -/
def enter (overloads : Overloads) (name : String) : Overloads :=
  match overloads.lookup name with
  | some _ => overloads
  | none => overloads.set name []

/-- The table with one more overload at the end of the name's entry. -/
def add (overloads : Overloads) (name : String) (signature : Signature) : Overloads :=
  overloads.set name (overloads.named name ++ [signature])

/-- The return type of the overload of `name` for the given argument types. -/
def returnType? (overloads : Overloads) (name : String) (argTypes : List TypeName) :
    Option TypeName :=
  ((overloads.named name).find? fun signature => signature.accepts argTypes).map
    Signature.returnType

/-- The return type of the overload of `name` for the given argument types, or why there is
none. -/
def resolve (overloads : Overloads) (name : String) (argTypes : List TypeName) :
    Except Error TypeName :=
  match overloads.lookup name with
  | none => .error (.functionNotDeclared name)
  | some _ =>
    match overloads.returnType? name argTypes with
    | some type => .ok type
    | none => .error (.noMatchingOverload name (TypeName.list argTypes))

/-- Two arguments of one type that give a value of that type. -/
private def arithmetic (type : TypeName) : Signature :=
  ⟨[type, type], type⟩

/-- Two arguments of one type that give a truth value. -/
private def comparison (type : TypeName) : Signature :=
  ⟨[type, type], boolType⟩

/-- One argument that gives a value of its type. -/
private def negation (type : TypeName) : Signature :=
  ⟨[type], type⟩

/-- The overloads of the operators.  Both uses of `-` stand in one entry. -/
def builtin : Overloads :=
  let numeric := [intType, floatType]
  [("+", numeric.map arithmetic), ("-", numeric.map arithmetic ++ numeric.map negation),
    ("*", numeric.map arithmetic), ("/", numeric.map arithmetic), ("%", [arithmetic intType])] ++
    ["==", "!=", "<", ">", "<=", ">="].map fun operator =>
      (operator, [intType, floatType, boolType].map comparison)

end Overloads

end Frontend
