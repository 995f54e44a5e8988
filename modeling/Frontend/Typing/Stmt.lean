import Frontend.Typing.Expr

/-!
# Annotation of statements

Statements are annotated in the order of the text, and both branches of a choice one after
the other in the same scope.  The first fault ends the annotation; what was done up to there
stays.
-/

namespace Frontend

/-- What an annotation leaves that can change what the annotator knows. -/
structure Pass (ν : Type) extends Annotated ν Unit where
  annotator : Annotator

namespace Pass

/-- The first element of a list and then, unless that failed, the others. -/
def cons {ν : Type} (head : Pass ν) (others : List ν) (tail : Annotator → Pass (List ν)) :
    Pass (List ν) :=
  match head.result with
  | .error error => ⟨⟨head.node :: others, head.events, .error error⟩, head.annotator⟩
  | .ok () =>
    let tail := tail head.annotator
    ⟨⟨head.node :: tail.node, head.events ++ tail.events, tail.result⟩, tail.annotator⟩

end Pass

namespace Annotator

/-- Whether a value of the given type can be assigned.  Any value can be dropped. -/
def checkAssign (annotator : Annotator) (target : String) (received : TypeName) :
    Except Error Unit := do
  if target == Stmt.discard then return
  let expected ← annotator.variableType target
  if received == expected then return
  throw (.assignmentTypeMismatch target expected received)

/-- Whether a value of the given type can be returned.  Outside a function any value can. -/
def checkReturn (annotator : Annotator) (received : TypeName) : Except Error Unit :=
  match annotator.function with
  | none => .ok ()
  | some (function, expected) =>
    if expected == received then .ok ()
    else .error (.returnTypeMismatch function expected received)

end Annotator

namespace Stmt

/-- Whether a value of the given type can be a condition. -/
def checkCondition (received : TypeName) : Except Error Unit :=
  if received == boolType then .ok () else .error (.conditionNotBool received)

mutual

/-- The statement with the tags of its expressions filled. -/
def annotate (annotator : Annotator) : Stmt → Pass Stmt
  | .letVar name type => ⟨⟨.letVar name type, [], .ok ()⟩, annotator.declare name type⟩
  | .assign target value =>
    let value := value.annotate annotator
    ⟨⟨.assign target value.node, value.events, value.result.bind (annotator.checkAssign target)⟩,
      annotator⟩
  | .ifElse condition thenBranch elseBranch =>
    let condition := condition.annotate annotator
    match condition.result.bind checkCondition with
    | .error error =>
      ⟨⟨.ifElse condition.node thenBranch elseBranch, condition.events, .error error⟩, annotator⟩
    | .ok () =>
      let first := thenBranch.annotate annotator
      match first.result with
      | .error error =>
        ⟨⟨.ifElse condition.node first.node elseBranch, condition.events ++ first.events,
          .error error⟩, first.annotator⟩
      | .ok () =>
        let second := elseBranch.annotate first.annotator
        ⟨⟨.ifElse condition.node first.node second.node,
          condition.events ++ first.events ++ second.events, second.result⟩, second.annotator⟩
  | .ret value =>
    let value := value.annotate annotator
    ⟨⟨.ret value.node, value.events, value.result.bind annotator.checkReturn⟩, annotator⟩
  | .block stmts =>
    let stmts := annotateAll annotator stmts
    ⟨⟨.block stmts.node, stmts.events, stmts.result⟩, stmts.annotator⟩

/-- Several statements with the tags of their expressions filled. -/
def annotateAll (annotator : Annotator) : List Stmt → Pass (List Stmt)
  | [] => ⟨⟨[], [], .ok ()⟩, annotator⟩
  | stmt :: stmts =>
    (stmt.annotate annotator).cons stmts fun annotator => annotateAll annotator stmts

end

end Stmt

end Frontend
