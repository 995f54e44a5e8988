/-!
# Signatures

The types that one overload of a function or operator takes and gives.
-/

namespace Frontend

/-- Types are known by name. -/
abbrev TypeName := String

/-- The type of integer literals. -/
def intType : TypeName := "int"

/-- The type of literals with a decimal point. -/
def floatType : TypeName := "float"

/-- The type of truth values. -/
def boolType : TypeName := "bool"

/-- Argument types and return type of an overload. -/
structure Signature where
  argTypes : List TypeName
  returnType : TypeName
  deriving DecidableEq

/-- Types as messages and signatures list them. -/
def TypeName.list (types : List TypeName) : String :=
  ", ".intercalate types

namespace Signature

/-- Whether the overload is the one for exactly these argument types. -/
def accepts (signature : Signature) (argTypes : List TypeName) : Bool :=
  signature.argTypes == argTypes

/-- The signature as it is printed. -/
def display (signature : Signature) : String :=
  "(" ++ TypeName.list signature.argTypes ++ ") -> " ++ signature.returnType

end Signature

end Frontend
