import Frontend.Decl.Basic

/-!
# The type system

Which modules are well typed, said without an annotator.

The judgements about expressions and statements speak of the prototypes that are visible and
of the variables.  Variables are one flat map for a function: it starts from the parameters,
and every `let` overwrites it from there on in the order of the text, in whatever block or
branch it stands.

- `OperatorType`: what the operators take and give
- `HasType`: the types of expressions; tags do not matter to it
- `TaggedType`: the type of an expression all of whose nodes are tagged with their types
- `Checks`: statements and what they leave of the variables
- `DeclChecks`, `DeclsCheck`: declarations in their order

Statements and declarations are judged by way of a judgement about their expressions, which is
`HasType` for plain trees and `TaggedType` for annotated ones.
-/

namespace Frontend

/-- The types of the variables, as far as they are declared. -/
abbrev Variables := String → Option TypeName

namespace Variables

/-- The variables after the declaration of one more. -/
def set (vars : Variables) (name : String) (type : TypeName) : Variables :=
  fun other => if other = name then some type else vars other

/-- The variables at the start of a function. -/
def ofParams (params : List Param) : Variables :=
  fun name => (params.find? fun param => param.name == name).map Param.type

end Variables

/-! ## Expressions -/

/-- The operators, with the types of their operands and of their value. -/
inductive OperatorType : String → List TypeName → TypeName → Prop
  | arithmetic {operator : String} {type : TypeName} (hoperator : operator ∈ ["+", "-", "*", "/"])
      (htype : type ∈ [intType, floatType]) : OperatorType operator [type, type] type
  | remainder : OperatorType "%" [intType, intType] intType
  | comparison {operator : String} {type : TypeName}
      (hoperator : operator ∈ ["==", "!=", "<", ">", "<=", ">="])
      (htype : type ∈ [intType, floatType, boolType]) :
      OperatorType operator [type, type] boolType
  | negation {type : TypeName} (htype : type ∈ [intType, floatType]) :
      OperatorType "-" [type] type

mutual

/-- The expression has the type. -/
inductive HasType (protos : List Prototype) (vars : Variables) : Expr → TypeName → Prop
  | int {value : Int} {tag : Tag} : HasType protos vars (.int value tag) intType
  | float {value : Binary64} {tag : Tag} : HasType protos vars (.float value tag) floatType
  | bool {value : Bool} {tag : Tag} : HasType protos vars (.bool value tag) boolType
  | var {name : String} {type : TypeName} {tag : Tag} (hvar : vars name = some type) :
      HasType protos vars (.var name tag) type
  | unary {operator : String} {operand : Expr} {operandType type : TypeName} {tag : Tag}
      (hoperand : HasType protos vars operand operandType)
      (hoperator : OperatorType operator [operandType] type) :
      HasType protos vars (.unary operator operand tag) type
  | binary {operator : String} {lhs rhs : Expr} {lhsType rhsType type : TypeName} {tag : Tag}
      (hlhs : HasType protos vars lhs lhsType) (hrhs : HasType protos vars rhs rhsType)
      (hoperator : OperatorType operator [lhsType, rhsType] type) :
      HasType protos vars (.binary operator lhs rhs tag) type
  | call {callee : String} {args : List Expr} {proto : Prototype} {type : TypeName} {tag : Tag}
      (hargs : HaveTypes protos vars args proto.argTypes) (hproto : proto ∈ protos)
      (hname : proto.name = callee) (hreturn : proto.returnType = type) :
      HasType protos vars (.call callee args tag) type

/-- The expressions have the types, one by one. -/
inductive HaveTypes (protos : List Prototype) (vars : Variables) :
    List Expr → List TypeName → Prop
  | nil : HaveTypes protos vars [] []
  | cons {expr : Expr} {exprs : List Expr} {type : TypeName} {types : List TypeName}
      (hexpr : HasType protos vars expr type) (hexprs : HaveTypes protos vars exprs types) :
      HaveTypes protos vars (expr :: exprs) (type :: types)

end

mutual

/-- The expression and all expressions in it. -/
def Expr.nodes : Expr → List Expr
  | .int value tag => [.int value tag]
  | .float value tag => [.float value tag]
  | .bool value tag => [.bool value tag]
  | .var name tag => [.var name tag]
  | .unary operator operand tag => .unary operator operand tag :: operand.nodes
  | .binary operator lhs rhs tag => .binary operator lhs rhs tag :: (lhs.nodes ++ rhs.nodes)
  | .call callee args tag => .call callee args tag :: nodesOfAll args

/-- The expressions and all expressions in them. -/
def Expr.nodesOfAll : List Expr → List Expr
  | [] => []
  | expr :: exprs => expr.nodes ++ nodesOfAll exprs

end

/-- The expression has the type and no other, and is tagged with it. -/
structure TaggedNode (protos : List Prototype) (vars : Variables) (expr : Expr)
    (type : TypeName) : Prop where
  tag : expr.tag = some type
  hasType : HasType protos vars expr type
  unique : ∀ other, HasType protos vars expr other → other = type

/-- The expression has the type, and each expression in it is tagged with its own. -/
structure TaggedType (protos : List Prototype) (vars : Variables) (expr : Expr)
    (type : TypeName) : Prop where
  root : TaggedNode protos vars expr type
  nodes : ∀ node ∈ expr.nodes, ∃ nodeType, TaggedNode protos vars node nodeType

/-! ## Statements -/

section Statements

variable (typed : Variables → Expr → TypeName → Prop) (returnType : TypeName)

mutual

/-- The statement checks in a function of the given return type, and leaves the second
variables if it starts from the first. -/
inductive Checks : Variables → Stmt → Variables → Prop
  | letVar {vars : Variables} {name : String} {type : TypeName} :
      Checks vars (.letVar name type) (vars.set name type)
  | assign {vars : Variables} {target : String} {value : Expr} {type : TypeName}
      (htarget : target ≠ Stmt.discard) (hvalue : typed vars value type)
      (hvar : vars target = some type) : Checks vars (.assign target value) vars
  | discard {vars : Variables} {value : Expr} {type : TypeName} (hvalue : typed vars value type) :
      Checks vars (.assign Stmt.discard value) vars
  | ifElse {vars vars' vars'' : Variables} {condition : Expr} {thenBranch elseBranch : Stmt}
      (hcondition : typed vars condition boolType) (hthen : Checks vars thenBranch vars')
      (helse : Checks vars' elseBranch vars'') :
      Checks vars (.ifElse condition thenBranch elseBranch) vars''
  | ret {vars : Variables} {value : Expr} (hvalue : typed vars value returnType) :
      Checks vars (.ret value) vars
  | block {vars vars' : Variables} {stmts : List Stmt} (hstmts : ChecksAll vars stmts vars') :
      Checks vars (.block stmts) vars'

/-- The statements check one after the other. -/
inductive ChecksAll : Variables → List Stmt → Variables → Prop
  | nil {vars : Variables} : ChecksAll vars [] vars
  | cons {vars vars' vars'' : Variables} {stmt : Stmt} {stmts : List Stmt}
      (hstmt : Checks vars stmt vars') (hstmts : ChecksAll vars' stmts vars'') :
      ChecksAll vars (stmt :: stmts) vars''

end

end Statements

/-! ## Declarations -/

section Declarations

variable (typed : List Prototype → Variables → Expr → TypeName → Prop)

/-- The declaration checks after others with the given prototypes. -/
structure DeclChecks (earlier : List Prototype) (decl : Decl) : Prop where
  /-- No two parameters have the same name. -/
  distinct : (decl.proto.params.map Param.name).Nodup
  /-- No earlier declaration has the same name and arguments and another return type. -/
  consistent : ∀ proto ∈ earlier, proto.name = decl.proto.name →
    proto.argTypes = decl.proto.argTypes → proto.returnType = decl.proto.returnType
  /-- The body checks from the parameters on.  It sees its own prototype. -/
  body : ∀ body ∈ decl.body, ∃ vars, Checks (typed (earlier ++ [decl.proto]))
    decl.proto.returnType (.ofParams decl.proto.params) body vars

/-- Each declaration checks after those that stand before it. -/
def DeclsCheck (decls : List Decl) : Prop :=
  ∀ before decl after, decls = before ++ decl :: after →
    DeclChecks typed (before.map Decl.proto) decl

end Declarations

end Frontend
