import Frontend.Binary64.Decimal
import Frontend.Expr.Basic
import Frontend.Parser.Basic

/-!
# Parsing expressions

An expression is a chain of primaries with operators between them.  Parentheses, the operand
of a unary operator and the arguments of a call are one level further down.

Each parser with `Over` in its name is given the parser of a primary one level further down.
`innerPrimary` is that parser, by recursion on the levels that are left; the parsers without
`Over` put the two together.
-/

namespace Frontend.Parser

open scoped CorePower

/-! ## Literals -/

/-- An integer literal, of which only values below `2 ^ 31` are valid. -/
def intLiteral : Parser Int := do
  let token ← expect .int "integer literal"
  let value := Text.decimalValue token.text.toList
  if value < 2 ^ (31 : Nat) then return value else throw (.invalidLiteral "int" token.text)

/-- A float literal, of which only finite values are valid. -/
def floatLiteral : Parser Binary64 := do
  let token ← expect .float "float literal"
  match (Binary64.ofText? token.text).filter Binary64.isFinite with
  | some value => return value
  | none => throw (.invalidLiteral "float" token.text)

/-- A truth value. -/
def boolLiteral : Parser Bool := do
  let token ← expect .bool "bool literal"
  if token.text == "true" then return true
  else if token.text == "false" then return false
  else throw (.invalidLiteral "bool" token.text)

/-! ## Chains -/

/-- An operator of at least the given precedence and the primary after it, unless the chain
ends.  A token that is no operator has precedence `-1`. -/
def linkOver (primary : Parser Expr) (least : Int) : Parser (Option (String × Expr)) := do
  if (← current).precedence < least then return none
  let operator ← advance
  return some (operator.text, ← primary)

/-- The rest of a chain after its first expression, as far as the operators have at least
the given precedence. -/
def chainOver (primary : Parser Expr) (least : Int) (first : Expr) : Parser Expr := do
  let links ← collect (linkOver primary least)
  return Expr.ofChain first links

/-- A primary and the chain that it begins. -/
def exprOver (primary : Parser Expr) : Parser Expr := do
  chainOver primary 0 (← primary)

/-! ## Primaries -/

/-- An expression in parentheses. -/
def parenthesizedOver (inner : Parser Expr) : Parser Expr := do
  discard <| expectMisc "("
  let expr ← exprOver inner
  discard <| expectMisc ")"
  return expr

/-- An operator in front of a primary. -/
def unaryOver (inner : Parser Expr) : Parser Expr := do
  let operator ← expect .op "unary operator"
  return .unary operator.text (← inner) none

/-- A comma and the argument after it, unless the arguments end. -/
def moreArgOver (inner : Parser Expr) : Parser (Option Expr) := do
  if (← current).isMisc ")" then return none
  if !(← current).isMisc "," then unexpected ") or , in arg list"
  discard advance
  return some (← exprOver inner)

/-- The arguments of a call, after its opening parenthesis and with its closing one. -/
def argumentsOver (inner : Parser Expr) : Parser (List Expr) := do
  let args ←
    if (← current).isMisc ")" then pure []
    else do
      let first ← exprOver inner
      let others ← collect (moreArgOver inner)
      pure (first :: others)
  discard <| expectMisc ")"
  return args

/-- A variable, or a call if a parenthesis follows the name. -/
def identifierOrCallOver (inner : Parser Expr) : Parser Expr := do
  let name ← expect .identifier "identifier"
  if (← current).isMisc "(" then
    discard advance
    return .call name.text (← argumentsOver inner) none
  else return .var name.text none

/-- An expression without a binary operator outside parentheses and arguments. -/
def primaryOver (inner : Parser Expr) : Parser Expr := do
  let token ← current
  match token.kind with
  | .identifier => identifierOrCallOver inner
  | .int => return .int (← intLiteral) none
  | .float => return .float (← floatLiteral) none
  | .bool => return .bool (← boolLiteral) none
  | .misc => if token.isMisc "(" then parenthesizedOver inner else unexpected "expression"
  | .op => if token.isOp "-" then unaryOver inner else unexpected "expression"
  | _ => unexpected "expression"

/-! ## By levels -/

/-- A primary one level further down, with the given number of levels left. -/
def innerPrimary : Nat → Parser Expr
  | 0 => throw (.nestingTooDeep maxNesting)
  | levels + 1 => primaryOver (innerPrimary levels)

/-- A primary. -/
def primary (levels : Nat) : Parser Expr :=
  primaryOver (innerPrimary levels)

/-- An expression. -/
def expr (levels : Nat) : Parser Expr :=
  exprOver (primary levels)

/-- The rest of a chain after its first expression, as far as the operators have at least
the given precedence. -/
def chain (levels : Nat) (least : Int) (first : Expr) : Parser Expr :=
  chainOver (primary levels) least first

/-- An expression in parentheses. -/
def parenthesized (levels : Nat) : Parser Expr :=
  parenthesizedOver (innerPrimary levels)

/-- An operator in front of a primary. -/
def unary (levels : Nat) : Parser Expr :=
  unaryOver (innerPrimary levels)

/-- The arguments of a call, after its opening parenthesis and with its closing one. -/
def arguments (levels : Nat) : Parser (List Expr) :=
  argumentsOver (innerPrimary levels)

/-- A variable or a call. -/
def identifierOrCall (levels : Nat) : Parser Expr :=
  identifierOrCallOver (innerPrimary levels)

/-- The primary one level further down is the nested primary. -/
theorem innerPrimary_eq_nested (levels : Nat) : innerPrimary levels = nested primary levels := by
  cases levels <;> rfl

end Frontend.Parser
