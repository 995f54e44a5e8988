import Frontend.Binary64.Decimal
import Frontend.Decl.Basic

/-!
# Source text of trees

Trees as text of the language.

* A binary expression that is an operand stands in parentheses, needed or not, so the text has one
  reading whatever binds tighter.
* Statements stand one to a line.  Branches are always written as blocks; a branch that is no block
  is written as the block that holds only it.
* Between two declarations there is an empty line.
-/

namespace Frontend

/-! ## Expressions -/

namespace Expr

/-- The text of an expression that is an operand. -/
def operandText (operand : Expr) (text : String) : String :=
  if operand.isBinary then "(" ++ text ++ ")" else text

mutual

/-- The expression as source text. -/
def source : Expr → String
  | .int value _ => Text.integerText value
  | .float value _ => value.literal
  | .bool value _ => if value then "true" else "false"
  | .var name _ => name
  | .unary operator operand _ => operator ++ operandText operand operand.source
  | .binary operator lhs rhs _ =>
    operandText lhs lhs.source ++ " " ++ operator ++ " " ++ operandText rhs rhs.source
  | .call callee args _ => callee ++ "(" ++ ", ".intercalate (sourceAll args) ++ ")"

/-- The texts of several expressions. -/
def sourceAll : List Expr → List String
  | [] => []
  | expr :: exprs => expr.source :: sourceAll exprs

end

end Expr

/-! ## Statements -/

namespace Stmt

/-- The white space at the front of a line. -/
def indent (depth : Nat) : String :=
  String.ofList (List.replicate (2 * depth) ' ')

/-- The texts between braces, each on a line of its own.  The lines stand one step deeper
than the braces; without any the braces stand together. -/
def braces (depth : Nat) (texts : List String) : String :=
  "\x7b" ++ String.join (texts.map fun text => "\n" ++ indent (depth + 1) ++ text) ++
    (if texts.isEmpty then "" else "\n" ++ indent depth) ++ "\x7d"

/-- An assignment as source text.  A call whose value is dropped is written as the call
alone. -/
def assignSource (target : String) (value : Expr) : String :=
  match value with
  | .call .. => if target == discard then value.source else target ++ " = " ++ value.source
  | _ => target ++ " = " ++ value.source

mutual

/-- The statement as source text, its first line at the given depth. -/
def sourceAt : Stmt → Nat → String
  | .letVar name type, _ => "let " ++ name ++ ": " ++ type
  | .assign target value, _ => assignSource target value
  | .ifElse condition thenBranch elseBranch, depth =>
    "if " ++ condition.source ++ " " ++
      (if thenBranch.isBlock then thenBranch.sourceAt depth
        else braces depth [thenBranch.sourceAt (depth + 1)]) ++
      " else " ++
      if elseBranch.isBlock || elseBranch.isIfElse then elseBranch.sourceAt depth
      else braces depth [elseBranch.sourceAt (depth + 1)]
  | .ret value, _ => "return " ++ value.source
  | .block stmts, depth => braces depth (sourcesAt stmts (depth + 1))

/-- The texts of several statements at one depth. -/
def sourcesAt : List Stmt → Nat → List String
  | [], _ => []
  | stmt :: stmts, depth => stmt.sourceAt depth :: sourcesAt stmts depth

end

/-- The statement as source text. -/
def source (stmt : Stmt) : String :=
  stmt.sourceAt 0

/-- The statement as a block of source text. -/
def blockSource (stmt : Stmt) : String :=
  if stmt.isBlock then stmt.sourceAt 0 else braces 0 [stmt.sourceAt 1]

end Stmt

/-! ## Declarations and modules -/

/-- The parameter as source text. -/
def Param.source (param : Param) : String :=
  param.name ++ ": " ++ param.type

/-- The prototype as source text. -/
def Prototype.source (proto : Prototype) : String :=
  proto.name ++ "(" ++ ", ".intercalate (proto.params.map Param.source) ++ "): " ++
    proto.returnType

/-- The declaration as source text. -/
def Decl.source (decl : Decl) : String :=
  match decl.body with
  | some body => "def " ++ decl.proto.source ++ " " ++ body.blockSource
  | none => "extern " ++ decl.proto.source

/-- The module as source text. -/
def Module.source (module : Module) : String :=
  "\n\n".intercalate (module.decls.map Decl.source)

end Frontend
