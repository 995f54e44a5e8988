import Frontend.Decl.Basic

/-!
# Equality of trees

`equals` compares shape, names and values and ignores the tags of the expressions; `identical`
compares the tags as well.  Float values are compared as numbers, so an expression with a NaN in
it is not even equal to itself.
-/

namespace Frontend

/-! ## Expressions -/

namespace Expr

mutual

/-- Whether two expressions are the same but for their tags. -/
def equals : Expr → Expr → Bool
  | .int value _, .int value' _ => value == value'
  | .float value _, .float value' _ => value.equals value'
  | .bool value _, .bool value' _ => value == value'
  | .var name _, .var name' _ => name == name'
  | .unary operator operand _, .unary operator' operand' _ =>
    operator == operator' && operand.equals operand'
  | .binary operator lhs rhs _, .binary operator' lhs' rhs' _ =>
    operator == operator' && lhs.equals lhs' && rhs.equals rhs'
  | .call callee args _, .call callee' args' _ => callee == callee' && equalsAll args args'
  | _, _ => false

/-- Whether two lists hold the same expressions but for their tags. -/
def equalsAll : List Expr → List Expr → Bool
  | [], [] => true
  | expr :: exprs, expr' :: exprs' => expr.equals expr' && equalsAll exprs exprs'
  | _, _ => false

end

mutual

/-- Whether two expressions are the same and have the same tags. -/
def identical : Expr → Expr → Bool
  | .int value tag, .int value' tag' => value == value' && tag == tag'
  | .float value tag, .float value' tag' => value.equals value' && tag == tag'
  | .bool value tag, .bool value' tag' => value == value' && tag == tag'
  | .var name tag, .var name' tag' => name == name' && tag == tag'
  | .unary operator operand tag, .unary operator' operand' tag' =>
    operator == operator' && operand.identical operand' && tag == tag'
  | .binary operator lhs rhs tag, .binary operator' lhs' rhs' tag' =>
    operator == operator' && lhs.identical lhs' && rhs.identical rhs' && tag == tag'
  | .call callee args tag, .call callee' args' tag' =>
    callee == callee' && identicalAll args args' && tag == tag'
  | _, _ => false

/-- Whether two lists hold the same expressions with the same tags. -/
def identicalAll : List Expr → List Expr → Bool
  | [], [] => true
  | expr :: exprs, expr' :: exprs' => expr.identical expr' && identicalAll exprs exprs'
  | _, _ => false

end

end Expr

/-! ## Statements -/

namespace Stmt

mutual

/-- Whether two statements are the same but for the tags. -/
def equals : Stmt → Stmt → Bool
  | .letVar name type, .letVar name' type' => name == name' && type == type'
  | .assign target value, .assign target' value' => target == target' && value.equals value'
  | .ifElse condition thenBranch elseBranch, .ifElse condition' thenBranch' elseBranch' =>
    condition.equals condition' && thenBranch.equals thenBranch' && elseBranch.equals elseBranch'
  | .ret value, .ret value' => value.equals value'
  | .block stmts, .block stmts' => equalsAll stmts stmts'
  | _, _ => false

/-- Whether two lists hold the same statements but for the tags. -/
def equalsAll : List Stmt → List Stmt → Bool
  | [], [] => true
  | stmt :: stmts, stmt' :: stmts' => stmt.equals stmt' && equalsAll stmts stmts'
  | _, _ => false

end

mutual

/-- Whether two statements are the same and have the same tags. -/
def identical : Stmt → Stmt → Bool
  | .letVar name type, .letVar name' type' => name == name' && type == type'
  | .assign target value, .assign target' value' => target == target' && value.identical value'
  | .ifElse condition thenBranch elseBranch, .ifElse condition' thenBranch' elseBranch' =>
    condition.identical condition' && thenBranch.identical thenBranch' &&
      elseBranch.identical elseBranch'
  | .ret value, .ret value' => value.identical value'
  | .block stmts, .block stmts' => identicalAll stmts stmts'
  | _, _ => false

/-- Whether two lists hold the same statements with the same tags. -/
def identicalAll : List Stmt → List Stmt → Bool
  | [], [] => true
  | stmt :: stmts, stmt' :: stmts' => stmt.identical stmt' && identicalAll stmts stmts'
  | _, _ => false

end

end Stmt

/-! ## Declarations and modules -/

namespace Decl

/-- Whether two bodies are both absent, or both there and related. -/
def sameBody (same : Stmt → Stmt → Bool) : Option Stmt → Option Stmt → Bool
  | none, none => true
  | some body, some body' => same body body'
  | _, _ => false

/-- Whether two declarations are the same but for the tags. -/
def equals (decl decl' : Decl) : Bool :=
  decl.proto == decl'.proto && sameBody Stmt.equals decl.body decl'.body

/-- Whether two declarations are the same and have the same tags. -/
def identical (decl decl' : Decl) : Bool :=
  decl.proto == decl'.proto && sameBody Stmt.identical decl.body decl'.body

end Decl

namespace Module

/-- Whether two lists are of one length and related place by place. -/
def sameDecls (same : Decl → Decl → Bool) : List Decl → List Decl → Bool
  | [], [] => true
  | decl :: decls, decl' :: decls' => same decl decl' && sameDecls same decls decls'
  | _, _ => false

/-- Whether two modules have the same name and, but for the tags, the same declarations. -/
def equals (module module' : Module) : Bool :=
  module.name == module'.name && sameDecls Decl.equals module.decls module'.decls

/-- Whether two modules have the same name and the same declarations with the same tags. -/
def identical (module module' : Module) : Bool :=
  module.name == module'.name && sameDecls Decl.identical module.decls module'.decls

end Module

end Frontend
