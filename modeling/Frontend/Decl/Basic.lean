import Frontend.Stmt.Basic

/-!
# Declarations and modules

A declaration introduces a function by its prototype.  With a body it defines the function;
without one the function is external.  A module is a named list of declarations.
-/

namespace Frontend

/-- A parameter of a function. -/
structure Param where
  name : String
  type : TypeName
  deriving DecidableEq

/-- What a function is called, takes and gives. -/
structure Prototype where
  name : String
  params : List Param
  returnType : TypeName
  deriving DecidableEq

/-- The declaration of a function, external if there is no body. -/
structure Decl where
  proto : Prototype
  body : Option Stmt

/-- A named list of declarations. -/
structure Module where
  name : String
  decls : List Decl

/-- The types of the parameters. -/
def Prototype.argTypes (proto : Prototype) : List TypeName :=
  proto.params.map Param.type

/-- The overload that the prototype declares. -/
def Prototype.signature (proto : Prototype) : Signature :=
  ⟨proto.argTypes, proto.returnType⟩

namespace Decl

/-- The name of the function. -/
def name (decl : Decl) : String := decl.proto.name

/-- Whether the function is defined elsewhere. -/
def isExtern (decl : Decl) : Bool := decl.body.isNone

/-- The tags in the body, if there is one. -/
def tags (decl : Decl) : Option (List Tag) :=
  decl.body.map Stmt.tags

end Decl

/-- The tags of each declaration. -/
def Module.tags (module : Module) : List (Option (List Tag)) :=
  module.decls.map Decl.tags

end Frontend
