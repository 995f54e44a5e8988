import Frontend.Binary64.Basic
import Frontend.Token.Basic
import Frontend.Typing.Signature

/-!
# Expressions

Trees of expressions.  Every node has a tag for its type, which stays empty until
the tree is annotated.

A chain is a row of expressions with operators between them.  `Expr.ofChain` groups it: an
operator that binds tighter takes its two neighbours first, and operators that bind equally
group to the left.
-/

namespace Frontend

/-- The type of an expression, once it is known. -/
abbrev Tag := Option TypeName

namespace Tag

/-- The tag after an attempt to fill it: the first type stays. -/
def fill (tag : Tag) (type : TypeName) : Tag :=
  some (tag.getD type)

end Tag

/-- An expression.  Operators and callees are known by name, and any name can stand
in a tree. -/
inductive Expr where
  | int (value : Int) (tag : Tag)
  | float (value : Binary64) (tag : Tag)
  | bool (value : Bool) (tag : Tag)
  | var (name : String) (tag : Tag)
  | unary (operator : String) (operand : Expr) (tag : Tag)
  | binary (operator : String) (lhs rhs : Expr) (tag : Tag)
  | call (callee : String) (args : List Expr) (tag : Tag)

namespace Expr

/-- The tag of the root. -/
def tag : Expr → Tag
  | .int _ tag | .float _ tag | .bool _ tag | .var _ tag => tag
  | .unary _ _ tag | .binary _ _ _ tag | .call _ _ tag => tag

/-- Whether the root is a binary operator. -/
def isBinary : Expr → Bool
  | .binary .. => true
  | _ => false

mutual

/-- The tags of all nodes, each node before its operands. -/
def tags : Expr → List Tag
  | .int _ tag | .float _ tag | .bool _ tag | .var _ tag => [tag]
  | .unary _ operand tag => tag :: operand.tags
  | .binary _ lhs rhs tag => tag :: (lhs.tags ++ rhs.tags)
  | .call _ args tag => tag :: tagsOfAll args

/-- The tags of several expressions, one after the other. -/
def tagsOfAll : List Expr → List Tag
  | [] => []
  | expr :: exprs => expr.tags ++ tagsOfAll exprs

end

end Expr

/-! ## Chains of binary operators

The tree of a chain grows by one operator and operand at a time, at its right edge.  Down that edge
the operators bind tighter and tighter, so the new operator takes over the first of them that binds
at least as tightly as itself.
-/

/-- A chain under construction.  Its leaves are the expressions of the chain, which are
never taken apart. -/
inductive OpTree where
  | leaf (expr : Expr)
  | node (operator : String) (lhs rhs : OpTree)

namespace OpTree

/-- The tree with one more operator and operand at its right end. -/
def snoc (operator : String) (operand : Expr) : OpTree → OpTree
  | .leaf expr => .node operator (.leaf expr) (.leaf operand)
  | .node root lhs rhs =>
    if Operator.precedence root < Operator.precedence operator then
      .node root lhs (rhs.snoc operator operand)
    else .node operator (.node root lhs rhs) (.leaf operand)

/-- The expression that the tree stands for. -/
def toExpr : OpTree → Expr
  | .leaf expr => expr
  | .node operator lhs rhs => .binary operator lhs.toExpr rhs.toExpr none

end OpTree

/-- The expression that a chain stands for. -/
def Expr.ofChain (first : Expr) (links : List (String × Expr)) : Expr :=
  (links.foldl (fun tree (operator, operand) => tree.snoc operator operand)
    (OpTree.leaf first)).toExpr

end Frontend
