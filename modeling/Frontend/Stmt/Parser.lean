import Frontend.Expr.Parser
import Frontend.Stmt.Basic

/-!
# Parsing statements

The statements of a block, and a choice that follows `else` directly, are one level further
down.  As with expressions, a parser with `Over` in its name is given the parser of a
statement one level further down.
-/

namespace Frontend.Parser

/-- The declaration of a variable. -/
def letVar : Parser Stmt := do
  discard <| expect .kwLet "let"
  let name ← expect .identifier "variable name"
  discard <| expectMisc ":"
  let type ← expect .identifier "type name"
  return .letVar name.text type.text

/-- An assignment, or a call whose value is dropped. -/
def assignOrCall (levels : Nat) : Parser Stmt := do
  let name ← expect .identifier "identifier"
  if (← current).isMisc "=" then
    discard advance
    return .assign name.text (← expr levels)
  else if (← current).isMisc "(" then
    discard advance
    return .call name.text (← arguments levels)
  else unexpected "assignment or function call"

/-- The return of a value. -/
def ret (levels : Nat) : Parser Stmt := do
  discard <| expect .kwReturn "return"
  return .ret (← expr levels)

/-- A statement of a block, unless the block ends. -/
def itemOver (inner : Parser Stmt) : Parser (Option Stmt) := do
  if (← current).isMisc "\x7d" then return none
  if (← current).kind = .eof then unexpected "\x7d"
  return some (← inner)

/-- Statements between braces. -/
def blockOver (inner : Parser Stmt) : Parser Stmt := do
  discard <| expectMisc "\x7b"
  let stmts ← collect (itemOver inner)
  discard advance
  return .block stmts

/-- A choice between two branches, of which the second is a block or another choice. -/
def ifElseOver (levels : Nat) (inner : Parser Stmt) : Parser Stmt := do
  discard <| expect .kwIf "if"
  let condition ← expr levels
  let thenBranch ← blockOver inner
  discard <| expect .kwElse "else"
  let elseBranch ← if (← current).kind = .kwIf then inner else blockOver inner
  return .ifElse condition thenBranch elseBranch

/-- A statement. -/
def stmtOver (levels : Nat) (inner : Parser Stmt) : Parser Stmt := do
  let token ← current
  match token.kind with
  | .kwLet => letVar
  | .identifier => assignOrCall levels
  | .kwIf => ifElseOver levels inner
  | .kwReturn => ret levels
  | .misc => if token.isMisc "\x7b" then blockOver inner else unexpected "statement"
  | _ => unexpected "statement"

/-- A statement one level further down, with the given number of levels left. -/
def innerStmt : Nat → Parser Stmt
  | 0 => throw (.nestingTooDeep maxNesting)
  | levels + 1 => stmtOver levels (innerStmt levels)

/-- A statement. -/
def stmt (levels : Nat) : Parser Stmt :=
  stmtOver levels (innerStmt levels)

/-- Statements between braces. -/
def block (levels : Nat) : Parser Stmt :=
  blockOver (innerStmt levels)

/-- A choice between two branches. -/
def ifElse (levels : Nat) : Parser Stmt :=
  ifElseOver levels (innerStmt levels)

/-- The statement one level further down is the nested statement. -/
theorem innerStmt_eq_nested (levels : Nat) : innerStmt levels = nested stmt levels := by
  cases levels <;> rfl

end Frontend.Parser
