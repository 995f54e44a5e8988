import Frontend.Expr.Basic

/-!
# Statements

Trees of statements.  A call that stands as a statement is an assignment of its value to
the name `_`, which no variable can have.
-/

namespace Frontend

/-- A statement.  Branches are blocks in every parsed tree; a tree built by hand can have
any statement there. -/
inductive Stmt where
  | letVar (name : String) (type : TypeName)
  | assign (target : String) (value : Expr)
  | ifElse (condition : Expr) (thenBranch elseBranch : Stmt)
  | ret (value : Expr)
  | block (stmts : List Stmt)

namespace Stmt

/-- The target of an assignment whose value is dropped. -/
def discard : String := "_"

/-- A call whose value is dropped. -/
def call (callee : String) (args : List Expr) : Stmt :=
  .assign discard (.call callee args none)

/-- Whether the statement is a block. -/
def isBlock : Stmt → Bool
  | .block _ => true
  | _ => false

/-- Whether the statement is a choice between two branches. -/
def isIfElse : Stmt → Bool
  | .ifElse .. => true
  | _ => false

mutual

/-- The tags of all expressions, in the order of the text. -/
def tags : Stmt → List Tag
  | .letVar .. => []
  | .assign _ value => value.tags
  | .ifElse condition thenBranch elseBranch =>
    condition.tags ++ thenBranch.tags ++ elseBranch.tags
  | .ret value => value.tags
  | .block stmts => tagsOfAll stmts

/-- The tags of several statements, one after the other. -/
def tagsOfAll : List Stmt → List Tag
  | [] => []
  | stmt :: stmts => stmt.tags ++ tagsOfAll stmts

end

end Stmt

end Frontend
