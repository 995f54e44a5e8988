import Frontend.Decl.Parser

/-!
# Recursive descent with a depth counter

The parsers of the library are given the levels that they may still go down, and repeat a step
only as long as it makes progress.  The routines of this module are the same parsers in the form
in which a machine runs them: the depth is part of the state, and whoever goes one level down
counts it up and down again; repetition and recursion go on as long as the tokens make them; and
operators are grouped while they are read, with precedences of 32 bits.

Nothing in the routines themselves makes a run end.  A run is given the number of calls that may
be open at once, where a round of a repetition counts as a call of the next one, and `none` says
that they did not suffice.  A run that goes on for ever is one for which no number suffices;
`Settles` says that some number does, and that more of them change nothing.
-/

namespace Frontend

namespace Descent

/-- Where a routine stands: the state of the parser, how many levels deep it is, and how deep
it has been at most. -/
structure Machine where
  state : Parser.State
  depth : Nat
  deepest : Nat

/-- The machine one level further down. -/
def Machine.enter (machine : Machine) : Machine :=
  { machine with
    depth := machine.depth + 1
    deepest := max machine.deepest (machine.depth + 1) }

/-- The machine one level further up. -/
def Machine.leave (machine : Machine) : Machine :=
  { machine with depth := machine.depth - 1 }

end Descent

/-- A run from a machine: an answer of type `α` or an error, and the machine at the end, unless the
calls did not suffice. -/
abbrev Descent := ExceptT Error (StateT Descent.Machine Option)

namespace Descent

open Frontend.Parser

variable {α β : Type}

/-- From some number of calls on, the run gives the value. -/
def Settles (run : Nat → Option α) (value : α) : Prop :=
  ∃ enough, ∀ calls, enough ≤ calls → run calls = some value

/-- A run for which there are no calls left. -/
def stuck : Descent α := fun _ => none

/-- A parser that goes no level down. -/
def lift (parser : Parser α) : Descent α := fun machine =>
  match parser machine.state with
  | .ok answer state => some (.ok answer, { machine with state })
  | .error error state => some (.error error, { machine with state })

/-- Runs a routine one level further down, if there is a level left, and comes back up whether it
succeeds or fails. -/
def nested (routine : Descent α) : Descent α := fun machine =>
  if maxNesting ≤ machine.depth then some (.error (.nestingTooDeep maxNesting), machine)
  else Prod.map id Machine.leave <$> routine machine.enter

/-- Repeats a step until it answers `none`, and answers what it found after what was found
before. -/
def collect (step : Descent (Option α)) : Nat → List α → Descent (List α)
  | 0, _ => stuck
  | calls + 1, found => do
    match ← step with
    | none => return found
    | some item => collect step calls (found ++ [item])

/-- The precedence of a token as a number of 32 bits. -/
def precedence (token : Token) : Int32 :=
  Int32.ofInt token.precedence

/-! ## Expressions -/

/-- A comma and the argument after it, unless the arguments end. -/
def moreArg (expr : Descent Expr) : Descent (Option Expr) := do
  if (← lift current).isMisc ")" then return none
  if !(← lift current).isMisc "," then lift (unexpected ") or , in arg list")
  lift (discard advance)
  return some (← nested expr)

mutual

/-- A primary and the chain that it begins. -/
def expr : Nat → Descent Expr
  | 0 => stuck
  | calls + 1 => do chain calls 0 (← primary calls)

/-- An expression in parentheses. -/
def parenthesized : Nat → Descent Expr
  | 0 => stuck
  | calls + 1 => do
    lift (discard <| expectMisc "(")
    let inner ← nested (expr calls)
    lift (discard <| expectMisc ")")
    return inner

/-- An expression without a binary operator outside parentheses and arguments. -/
def primary : Nat → Descent Expr
  | 0 => stuck
  | calls + 1 => do
    let token ← lift current
    match token.kind with
    | .identifier => identifierOrCall calls
    | .int => return .int (← lift intLiteral) none
    | .float => return .float (← lift floatLiteral) none
    | .bool => return .bool (← lift boolLiteral) none
    | .misc =>
      if token.isMisc "(" then parenthesized calls else lift (unexpected "expression")
    | .op => if token.isOp "-" then unary calls else lift (unexpected "expression")
    | _ => lift (unexpected "expression")

/-- An operator in front of a primary. -/
def unary : Nat → Descent Expr
  | 0 => stuck
  | calls + 1 => do
    let operator ← lift (expect .op "unary operator")
    return .unary operator.text (← nested (primary calls)) none

/-- The operators from here on that bind at least as tightly as `least`, with their right operands;
`lhs` is the left operand of the first.  A right operand takes the operators after it that bind
tighter than the one before it. -/
def chain : Nat → Int32 → Expr → Descent Expr
  | 0, _, _ => stuck
  | calls + 1, least, lhs => do
    let token ← lift current
    if precedence token < least then return lhs
    let operator ← lift advance
    let operand ← primary calls
    let following ← lift current
    let rhs ← (if precedence token < precedence following then
      chain calls (precedence token + 1) operand else pure operand : Descent Expr)
    chain calls least (.binary operator.text lhs rhs none)

/-- The arguments of a call, after its opening parenthesis and with its closing one. -/
def arguments : Nat → Descent (List Expr)
  | 0 => stuck
  | calls + 1 => do
    let args ←
      if (← lift current).isMisc ")" then pure []
      else do
        let first ← nested (expr calls)
        collect (moreArg (expr calls)) calls [first]
    lift (discard <| expectMisc ")")
    return args

/-- A variable, or a call if a parenthesis follows the name. -/
def identifierOrCall : Nat → Descent Expr
  | 0 => stuck
  | calls + 1 => do
    let name ← lift (expect .identifier "identifier")
    if (← lift current).isMisc "(" then
      lift (discard advance)
      return .call name.text (← arguments calls) none
    else return .var name.text none

end

/-! ## Statements -/

/-- An assignment, or a call whose value is dropped. -/
def assignOrCall (calls : Nat) : Descent Stmt := do
  let name ← lift (expect .identifier "identifier")
  if (← lift current).isMisc "=" then
    lift (discard advance)
    return .assign name.text (← expr calls)
  else if (← lift current).isMisc "(" then
    lift (discard advance)
    return .call name.text (← arguments calls)
  else lift (unexpected "assignment or function call")

/-- The return of a value. -/
def ret (calls : Nat) : Descent Stmt := do
  lift (discard <| expect .kwReturn "return")
  return .ret (← expr calls)

/-- A statement of a block, unless the block ends. -/
def item (stmt : Descent Stmt) : Descent (Option Stmt) := do
  if (← lift current).isMisc "\x7d" then return none
  if (← lift current).kind = .eof then lift (unexpected "\x7d")
  return some (← nested stmt)

mutual

/-- A statement. -/
def stmt : Nat → Descent Stmt
  | 0 => stuck
  | calls + 1 => do
    let token ← lift current
    match token.kind with
    | .kwLet => lift letVar
    | .identifier => assignOrCall calls
    | .kwIf => ifElse calls
    | .kwReturn => ret calls
    | .misc => if token.isMisc "\x7b" then block calls else lift (unexpected "statement")
    | _ => lift (unexpected "statement")

/-- A choice between two branches, of which the second is a block or another choice. -/
def ifElse : Nat → Descent Stmt
  | 0 => stuck
  | calls + 1 => do
    lift (discard <| expect .kwIf "if")
    let condition ← expr calls
    let thenBranch ← block calls
    lift (discard <| expect .kwElse "else")
    let elseBranch ←
      if (← lift current).kind = .kwIf then nested (ifElse calls) else block calls
    return .ifElse condition thenBranch elseBranch

/-- Statements between braces. -/
def block : Nat → Descent Stmt
  | 0 => stuck
  | calls + 1 => do
    lift (discard <| expectMisc "\x7b")
    let stmts ← collect (item (stmt calls)) calls []
    lift (discard advance)
    return .block stmts

end

/-! ## Declarations -/

/-- The parameters of a function, up to the closing parenthesis. -/
def params (calls : Nat) : Descent (List Param) := do
  if (← lift current).isMisc ")" then return []
  let first ← lift param
  collect (lift moreParam) calls [first]

/-- The prototype of a function. -/
def proto (calls : Nat) : Descent Prototype := do
  let name ← lift (expect .identifier "function name")
  lift (discard <| expectMisc "(")
  let params ← params calls
  lift (discard <| expectMisc ")")
  lift (discard <| expectMisc ":")
  let returnType ← lift (expect .identifier "return type")
  return ⟨name.text, params, returnType.text⟩

/-- The definition of a function. -/
def definition (calls : Nat) : Descent Decl := do
  lift (discard <| expect .kwDef "def")
  let proto ← proto calls
  let body ← block calls
  return ⟨proto, some body⟩

/-- The declaration of an external function. -/
def externDecl (calls : Nat) : Descent Decl := do
  lift (discard <| expect .kwExtern "extern")
  return ⟨← proto calls, none⟩

/-- A declaration, unless the source is at its end. -/
def decl? (calls : Nat) : Descent (Option Decl) := do
  let decl ←
    match (← lift current).kind with
    | .eof => return none
    | .kwDef => definition calls
    | .kwExtern => externDecl calls
    | _ => lift (unexpected "declaration")
  lift (record (.parsed decl.name decl.isExtern))
  return some decl

/-- All declarations up to the end of the source. -/
def decls (calls : Nat) : Descent (List Decl) :=
  collect (decl? calls) calls []

end Descent

end Frontend
