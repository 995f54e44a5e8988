import Frontend.Typing.Annotator

/-!
# Annotation of expressions

`Expr.annotate` finds the type of an expression and fills the tags of its nodes.  A tag that
is filled stays; an operator or a call that has one is not looked into again.  An annotation
that fails keeps the tags it has filled.
-/

namespace Frontend

/-- What an annotation leaves: the tree with its tags, what happened, and the result. -/
structure Annotated (ν α : Type) where
  node : ν
  events : List Event
  result : Except Error α

namespace Expr

mutual

/-- The expression with its tags filled, and its type. -/
def annotate (annotator : Annotator) : Expr → Annotated Expr TypeName
  | .int value tag => ⟨.int value (tag.fill intType), [], .ok (tag.getD intType)⟩
  | .float value tag => ⟨.float value (tag.fill floatType), [], .ok (tag.getD floatType)⟩
  | .bool value tag => ⟨.bool value (tag.fill boolType), [], .ok (tag.getD boolType)⟩
  | .var name tag =>
    match annotator.variableType name with
    | .ok type => ⟨.var name (tag.fill type), [], .ok (tag.getD type)⟩
    | .error error => ⟨.var name tag, [], .error error⟩
  | .unary operator operand (some type) =>
    ⟨.unary operator operand (some type), [.reusedOperator operator type], .ok type⟩
  | .unary operator operand none =>
    let operand := operand.annotate annotator
    let result := operand.result.bind fun type => annotator.resolve operator [type]
    ⟨.unary operator operand.node result.toOption, operand.events, result⟩
  | .binary operator lhs rhs (some type) =>
    ⟨.binary operator lhs rhs (some type), [.reusedOperator operator type], .ok type⟩
  | .binary operator lhs rhs none =>
    let lhs := lhs.annotate annotator
    match lhs.result with
    | .error error => ⟨.binary operator lhs.node rhs none, lhs.events, .error error⟩
    | .ok lhsType =>
      let rhs := rhs.annotate annotator
      let result := rhs.result.bind fun rhsType => annotator.resolve operator [lhsType, rhsType]
      ⟨.binary operator lhs.node rhs.node result.toOption, lhs.events ++ rhs.events, result⟩
  | .call callee args (some type) =>
    ⟨.call callee args (some type), [.reusedCall callee type], .ok type⟩
  | .call callee args none =>
    let args := annotateAll annotator args
    let result := args.result.bind (annotator.resolve callee)
    ⟨.call callee args.node result.toOption, args.events, result⟩

/-- Several expressions with their tags filled, and their types.  The first that fails is the
last to be annotated. -/
def annotateAll (annotator : Annotator) : List Expr → Annotated (List Expr) (List TypeName)
  | [] => ⟨[], [], .ok []⟩
  | expr :: exprs =>
    let head := expr.annotate annotator
    match head.result with
    | .error error => ⟨head.node :: exprs, head.events, .error error⟩
    | .ok type =>
      let tail := annotateAll annotator exprs
      ⟨head.node :: tail.node, head.events ++ tail.events, tail.result.map (type :: ·)⟩

end

end Expr

end Frontend
