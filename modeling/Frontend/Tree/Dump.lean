import Frontend.Binary64.Decimal
import Frontend.Decl.Basic

/-!
# Dump of trees

A module written out with each declaration on a line of its own and each node with the name of its
shape.
-/

namespace Frontend

/-! ## Expressions -/

namespace Expr

/-- A literal in a dump. -/
def dumpLiteral (value : String) (type : TypeName) : String :=
  "Literal(" ++ value ++ ", " ++ type ++ ")"

mutual

/-- The tree on one line. -/
def dump : Expr → String
  | .int value _ => dumpLiteral (Text.integerText value) intType
  | .float value _ => dumpLiteral value.text floatType
  | .bool value _ => dumpLiteral (if value then "true" else "false") boolType
  | .var name _ => "Variable(" ++ name ++ ")"
  | .unary operator operand _ => "UnaryExpr(" ++ operator ++ ", " ++ operand.dump ++ ")"
  | .binary operator lhs rhs _ =>
    "BinaryExpr(" ++ operator ++ ", " ++ lhs.dump ++ ", " ++ rhs.dump ++ ")"
  | .call callee args _ => "CallExpr(" ++ callee ++ ", [" ++ ", ".intercalate (dumpAll args) ++ "])"

/-- The dumps of several expressions. -/
def dumpAll : List Expr → List String
  | [] => []
  | expr :: exprs => expr.dump :: dumpAll exprs

end

end Expr

/-! ## Statements -/

namespace Stmt

mutual

/-- The tree on one line. -/
def dump : Stmt → String
  | .letVar name type => "Let(" ++ name ++ ", " ++ type ++ ")"
  | .assign target value => "Assign(" ++ target ++ ", " ++ value.dump ++ ")"
  | .ifElse condition thenBranch elseBranch =>
    "If(" ++ condition.dump ++ ", " ++ thenBranch.dump ++ ", " ++ elseBranch.dump ++ ")"
  | .ret value => "Return(" ++ value.dump ++ ")"
  | .block stmts => "Compound([" ++ ", ".intercalate (dumpAll stmts) ++ "])"

/-- The dumps of several statements. -/
def dumpAll : List Stmt → List String
  | [] => []
  | stmt :: stmts => stmt.dump :: dumpAll stmts

end

end Stmt

/-! ## Declarations and modules -/

/-- The parameter in a dump. -/
def Param.dump (param : Param) : String :=
  "Arg(" ++ param.name ++ ", " ++ param.type ++ ")"

/-- The prototype on one line. -/
def Prototype.dump (proto : Prototype) : String :=
  "Prototype(" ++ proto.name ++ ", [" ++ ", ".intercalate (proto.params.map Param.dump) ++ "], " ++
    proto.returnType ++ ")"

/-- The declaration on one line. -/
def Decl.dump (decl : Decl) : String :=
  match decl.body with
  | some body => "Func(" ++ decl.proto.dump ++ ", " ++ body.dump ++ ")"
  | none => "Func(" ++ decl.proto.dump ++ ")"

/-- The declarations of the module, one to a line. -/
def Module.dump (module : Module) : String :=
  "\n".intercalate (module.decls.map Decl.dump)

end Frontend
