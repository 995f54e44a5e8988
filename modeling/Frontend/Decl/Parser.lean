import Frontend.Decl.Basic
import Frontend.Stmt.Parser

/-!
# Parsing declarations and modules

A module is a row of declarations up to the end of the source.
-/

namespace Frontend

namespace Parser

/-- A parameter of a function. -/
def param : Parser Param := do
  let name ← expect .identifier "argument name"
  discard <| expectMisc ":"
  let type ← expect .identifier "argument type"
  return ⟨name.text, type.text⟩

/-- A comma and the parameter after it, unless the parameters end. -/
def moreParam : Parser (Option Param) := do
  if (← current).isMisc "," then
    discard advance
    return some (← param)
  else return none

/-- The parameters of a function, up to the closing parenthesis. -/
def params : Parser (List Param) := do
  if (← current).isMisc ")" then return []
  let first ← param
  let others ← collect moreParam
  return first :: others

/-- The prototype of a function. -/
def proto : Parser Prototype := do
  let name ← expect .identifier "function name"
  discard <| expectMisc "("
  let params ← params
  discard <| expectMisc ")"
  discard <| expectMisc ":"
  let returnType ← expect .identifier "return type"
  return ⟨name.text, params, returnType.text⟩

/-- The definition of a function. -/
def definition (levels : Nat) : Parser Decl := do
  discard <| expect .kwDef "def"
  let proto ← proto
  let body ← block levels
  return ⟨proto, some body⟩

/-- The declaration of an external function. -/
def externDecl : Parser Decl := do
  discard <| expect .kwExtern "extern"
  return ⟨← proto, none⟩

/-- A declaration, unless the source is at its end. -/
def decl? (levels : Nat) : Parser (Option Decl) := do
  let decl ←
    match (← current).kind with
    | .eof => return none
    | .kwDef => definition levels
    | .kwExtern => externDecl
    | _ => unexpected "declaration"
  record (.parsed decl.name decl.isExtern)
  return some decl

/-- All declarations up to the end of the source. -/
def decls (levels : Nat) : Parser (List Decl) :=
  collect (decl? levels)

end Parser

/-- The declarations of a source. -/
def Decl.parseAll (source : String) : Except Error (List Decl) × Parser.State :=
  (Parser.decls Parser.maxNesting).parse source

/-- The module with the given name and the declarations of a source. -/
def Module.parse (name source : String) : Except Error Module × Parser.State :=
  let (decls, state) := Decl.parseAll source
  (decls.map (Module.mk name), state)

end Frontend
