import Frontend.Proofs.Annotation.Effects

/-!
# Faults

What an annotation can find wrong.  A declaration is refused for its prototype, or a `Fault`
is found in its body (`Decl.fault_annotate`).  Two of the faults tell about the annotator: a
function that is not declared has no entry among the overloads, and a wrong return type is that of
the function that is current.

The lemmas follow the annotation: the checks at the leaves first, then expressions, statements and
declarations.
-/

namespace Frontend

/-- The faults that the annotation of a body can find, with the overloads that are known and the
function that it is in. -/
inductive Fault (overloads : Overloads) (function : Option (String × TypeName)) : Error → Prop
  | variable {name : String} : Fault overloads function (.variableNotDeclared name)
  | function {name : String} (hentry : overloads.lookup name = none) :
      Fault overloads function (.functionNotDeclared name)
  | arguments {name argTypes : String} :
      Fault overloads function (.noMatchingOverload name argTypes)
  | assignment {name expected received : String} :
      Fault overloads function (.assignmentTypeMismatch name expected received)
  | condition {received : String} : Fault overloads function (.conditionNotBool received)
  | ret {name expected received : String} (hfunction : function = some (name, expected)) :
      Fault overloads function (.returnTypeMismatch name expected received)

theorem bind_eq_error_iff {ε α β : Type} {result : Except ε α} {next : α → Except ε β} {error : ε} :
    result.bind next = .error error ↔
      result = .error error ∨ ∃ value, result = .ok value ∧ next value = .error error := by
  cases result <;> simp [Except.bind]

section Faults

variable {annotator : Annotator} {function : Option (String × TypeName)} {error : Error}

theorem Annotator.fault_resolve {name : String} {argTypes : List TypeName}
    (hresult : annotator.resolve name argTypes = .error error) :
    Fault annotator.overloads function error := by
  unfold Annotator.resolve Overloads.resolve at hresult
  split at hresult
  · cases hresult
    exact .function ‹_›
  · split at hresult
    · cases hresult
    · cases hresult
      exact .arguments

theorem Annotator.fault_variableType {name : String}
    (hresult : annotator.variableType name = .error error) :
    Fault annotator.overloads function error := by
  unfold variableType at hresult
  split at hresult
  · cases hresult
  · cases hresult
    exact .variable

mutual

theorem Expr.fault_annotate : (expr : Expr) → (expr.annotate annotator).result = .error error →
    Fault annotator.overloads function error
  | .var name tag, hresult => by
    rw [Expr.annotate] at hresult
    split at hresult
    · cases hresult
    · cases hresult
      exact Annotator.fault_variableType ‹_›
  | .unary operator operand none, hresult => by
    rw [Expr.annotate] at hresult
    rcases bind_eq_error_iff.1 hresult with hoperand | ⟨operandType, -, hresolve⟩
    · exact operand.fault_annotate hoperand
    · exact Annotator.fault_resolve hresolve
  | .binary operator lhs rhs none, hresult => by
    rw [Expr.annotate] at hresult
    cases hlhs : (lhs.annotate annotator).result with
    | error lhsError =>
      rw [hlhs] at hresult
      cases hresult
      exact lhs.fault_annotate hlhs
    | ok lhsType =>
      simp only [hlhs] at hresult
      rcases bind_eq_error_iff.1 hresult with hrhs | ⟨rhsType, -, hresolve⟩
      · exact rhs.fault_annotate hrhs
      · exact Annotator.fault_resolve hresolve
  | .call callee args none, hresult => by
    rw [Expr.annotate] at hresult
    rcases bind_eq_error_iff.1 hresult with hargs | ⟨argTypes, -, hresolve⟩
    · exact Expr.fault_annotateAll args hargs
    · exact Annotator.fault_resolve hresolve

theorem Expr.fault_annotateAll : (exprs : List Expr) →
    (Expr.annotateAll annotator exprs).result = .error error →
    Fault annotator.overloads function error
  | expr :: exprs, hresult => by
    rw [Expr.annotateAll] at hresult
    cases hexpr : (expr.annotate annotator).result with
    | error exprError =>
      rw [hexpr] at hresult
      cases hresult
      exact expr.fault_annotate hexpr
    | ok type =>
      simp only [hexpr] at hresult
      cases hexprs : (Expr.annotateAll annotator exprs).result with
      | error exprsError =>
        rw [hexprs] at hresult
        cases hresult
        exact Expr.fault_annotateAll exprs hexprs
      | ok types =>
        rw [hexprs] at hresult
        cases hresult

end

theorem Annotator.fault_checkAssign {target : String} {received : TypeName}
    (hresult : annotator.checkAssign target received = .error error) :
    Fault annotator.overloads function error := by
  unfold checkAssign at hresult
  split at hresult
  · cases hresult
  · rcases bind_eq_error_iff.1 hresult with hvar | ⟨expected, -, hcheck⟩
    · exact fault_variableType hvar
    · split at hcheck
      · cases hcheck
      · cases hcheck
        exact .assignment

theorem Annotator.fault_checkReturn {received : TypeName}
    (hresult : annotator.checkReturn received = .error error) :
    Fault annotator.overloads annotator.function error := by
  unfold checkReturn at hresult
  split at hresult
  · cases hresult
  · split at hresult
    · cases hresult
    · cases hresult
      exact .ret ‹_›

theorem Stmt.fault_checkCondition {received : TypeName}
    (hresult : checkCondition received = .error error) :
    Fault annotator.overloads function error := by
  unfold checkCondition at hresult
  split at hresult
  · cases hresult
  · cases hresult
    exact .condition

mutual

theorem Stmt.fault_annotate : (stmt : Stmt) → {annotator : Annotator} →
    (stmt.annotate annotator).result = .error error →
    Fault annotator.overloads annotator.function error
  | .assign target value, annotator, hresult => by
    rcases bind_eq_error_iff.1 hresult with hvalue | ⟨type, -, hcheck⟩
    · exact value.fault_annotate hvalue
    · exact Annotator.fault_checkAssign hcheck
  | .ifElse condition thenBranch elseBranch, annotator, hresult => by
    rw [Stmt.annotate] at hresult
    cases hcheck : (condition.annotate annotator).result.bind checkCondition with
    | error checkError =>
      rw [hcheck] at hresult
      cases hresult
      rcases bind_eq_error_iff.1 hcheck with hcondition | ⟨type, -, hcheck⟩
      · exact condition.fault_annotate hcondition
      · exact fault_checkCondition hcheck
    | ok done =>
      rw [hcheck] at hresult
      dsimp only at hresult
      cases hthen : (thenBranch.annotate annotator).result with
      | error thenError =>
        rw [hthen] at hresult
        cases hresult
        exact thenBranch.fault_annotate hthen
      | ok done =>
        rw [hthen] at hresult
        obtain ⟨hoverloads, hfunction⟩ := thenBranch.annotate_keeps annotator
        rw [← hoverloads, ← hfunction]
        exact elseBranch.fault_annotate hresult
  | .ret value, annotator, hresult => by
    rcases bind_eq_error_iff.1 hresult with hvalue | ⟨type, -, hcheck⟩
    · exact value.fault_annotate hvalue
    · exact Annotator.fault_checkReturn hcheck
  | .block stmts, _, hresult => Stmt.fault_annotateAll stmts hresult

theorem Stmt.fault_annotateAll : (stmts : List Stmt) → {annotator : Annotator} →
    (Stmt.annotateAll annotator stmts).result = .error error →
    Fault annotator.overloads annotator.function error
  | stmt :: stmts, annotator, hresult => by
    rw [Stmt.annotateAll, Pass.cons] at hresult
    cases hstmt : (stmt.annotate annotator).result with
    | error stmtError =>
      rw [hstmt] at hresult
      cases hresult
      exact stmt.fault_annotate hstmt
    | ok done =>
      rw [hstmt] at hresult
      obtain ⟨hoverloads, hfunction⟩ := stmt.annotate_keeps annotator
      rw [← hoverloads, ← hfunction]
      exact Stmt.fault_annotateAll stmts hresult

end

/-- A declaration is refused, or a fault is found in its body. -/
theorem Decl.fault_annotate {decl : Decl}
    (hresult : (decl.annotate annotator).result = .error error) :
    decl.Refuses annotator error ∨ Fault (decl.annotate annotator).annotator.overloads
      (some (decl.name, decl.proto.returnType)) error := by
  rcases decl.annotate_outcomes annotator with ⟨events, refusal, hrefuses, hannotate⟩ |
    ⟨known, events, -, hannotate⟩ <;> rw [hannotate] at hresult ⊢
  · cases hresult
    exact .inl hrefuses
  · rw [overloads_annotateReady]
    obtain ⟨proto, _ | body⟩ := decl
    · cases hresult
    · have hfault : Fault known.overloads (some (proto.name, proto.returnType)) error :=
        body.fault_annotate hresult
      exact .inr hfault

end Faults

end Frontend
