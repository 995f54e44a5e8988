import Frontend.Proofs.Annotation.Stmt

/-!
# More knowledge

`KnowsMore` relates an annotator to one that resolves whatever it resolves, and perhaps more.
What has been annotated with the first is annotated with the second in the same way
(`annotate_ok_mono`).
-/

namespace Frontend

/-! ## Annotators -/

/-- The second annotator is as the first, and an application that the first resolves has the same
type for it. -/
structure Annotator.KnowsMore (annotator later : Annotator) : Prop where
  scope : later.scope = annotator.scope
  function : later.function = annotator.function
  resolve : ∀ {name : String} {argTypes : List TypeName} {type : TypeName},
    annotator.resolve name argTypes = .ok type → later.resolve name argTypes = .ok type

namespace Annotator.KnowsMore

variable {annotator later : Annotator}

theorem variableType (hmore : annotator.KnowsMore later) (name : String) :
    later.variableType name = annotator.variableType name := by
  rw [Annotator.variableType, Annotator.variableType, hmore.scope]

theorem checkAssign (hmore : annotator.KnowsMore later) (target : String) (received : TypeName) :
    later.checkAssign target received = annotator.checkAssign target received := by
  rw [Annotator.checkAssign, Annotator.checkAssign, hmore.variableType]

theorem checkReturn (hmore : annotator.KnowsMore later) (received : TypeName) :
    later.checkReturn received = annotator.checkReturn received := by
  rw [Annotator.checkReturn, Annotator.checkReturn, hmore.function]

theorem declare (hmore : annotator.KnowsMore later) (name : String) (type : TypeName) :
    (annotator.declare name type).KnowsMore (later.declare name type) :=
  ⟨by rw [Annotator.declare, Annotator.declare, hmore.scope], hmore.function, hmore.resolve⟩

end Annotator.KnowsMore

/-! ## Expressions -/

namespace Expr

section More

variable {annotator later : Annotator}

theorem annotate_var_of_knowsMore (hmore : annotator.KnowsMore later) (name : String) (tag : Tag) :
    (var name tag).annotate later = (var name tag).annotate annotator := by
  rw [annotate, annotate, hmore.variableType]

mutual

/-- What has a type keeps it, and is tagged with it in the same way. -/
theorem annotate_ok_mono (hmore : annotator.KnowsMore later) : (expr : Expr) → {type : TypeName} →
    (expr.annotate annotator).result = .ok type →
    (expr.annotate later).result = .ok type ∧
      (expr.annotate later).node = (expr.annotate annotator).node
  | .int .., _, hresult | .float .., _, hresult | .bool .., _, hresult => ⟨hresult, rfl⟩
  | .unary _ _ (some _), _, hresult | .binary _ _ _ (some _), _, hresult
  | .call _ _ (some _), _, hresult => ⟨hresult, rfl⟩
  | .var name tag, type, hresult => by
    rw [annotate_var_of_knowsMore hmore]
    exact ⟨hresult, rfl⟩
  | .unary operator operand none, type, hresult => by
    obtain ⟨operandType, hoperand, hresolve⟩ := annotate_unary_ok_iff.1 hresult
    obtain ⟨hoperandLater, hnode⟩ := annotate_ok_mono hmore operand hoperand
    have hlater : ((unary operator operand none).annotate later).result = .ok type :=
      annotate_unary_ok_iff.2 ⟨operandType, hoperandLater, hmore.resolve hresolve⟩
    refine ⟨hlater, ?_⟩
    rw [annotate_unary_node hlater, annotate_unary_node hresult, hnode]
  | .binary operator lhs rhs none, type, hresult => by
    obtain ⟨lhsType, rhsType, hlhs, hrhs, hresolve⟩ := annotate_binary_ok_iff.1 hresult
    obtain ⟨hlhsLater, hlhsNode⟩ := annotate_ok_mono hmore lhs hlhs
    obtain ⟨hrhsLater, hrhsNode⟩ := annotate_ok_mono hmore rhs hrhs
    have hlater : ((binary operator lhs rhs none).annotate later).result = .ok type :=
      annotate_binary_ok_iff.2
        ⟨lhsType, rhsType, hlhsLater, hrhsLater, hmore.resolve hresolve⟩
    refine ⟨hlater, ?_⟩
    rw [annotate_binary_node hlater, annotate_binary_node hresult, hlhsNode, hrhsNode]
  | .call callee args none, type, hresult => by
    obtain ⟨argTypes, hargs, hresolve⟩ := annotate_call_ok_iff.1 hresult
    obtain ⟨hargsLater, hnode⟩ := annotateAll_ok_mono hmore args hargs
    have hlater : ((call callee args none).annotate later).result = .ok type :=
      annotate_call_ok_iff.2 ⟨argTypes, hargsLater, hmore.resolve hresolve⟩
    refine ⟨hlater, ?_⟩
    rw [annotate_call_node hlater, annotate_call_node hresult, hnode]

theorem annotateAll_ok_mono (hmore : annotator.KnowsMore later) : (exprs : List Expr) →
    {types : List TypeName} → (annotateAll annotator exprs).result = .ok types →
    (annotateAll later exprs).result = .ok types ∧
      (annotateAll later exprs).node = (annotateAll annotator exprs).node
  | [], _, hresult => ⟨hresult, rfl⟩
  | expr :: exprs, types, hresult => by
    obtain ⟨type, others, rfl, hexpr, hexprs⟩ := annotateAll_cons_ok_iff.1 hresult
    obtain ⟨hexprLater, hexprNode⟩ := annotate_ok_mono hmore expr hexpr
    obtain ⟨hexprsLater, hexprsNode⟩ := annotateAll_ok_mono hmore exprs hexprs
    have hlater : (annotateAll later (expr :: exprs)).result = .ok (type :: others) :=
      annotateAll_cons_ok_iff.2 ⟨type, others, rfl, hexprLater, hexprsLater⟩
    refine ⟨hlater, ?_⟩
    rw [annotateAll_cons_node hlater, annotateAll_cons_node hresult, hexprNode, hexprsNode]

end

end More

end Expr

/-! ## Statements -/

namespace Stmt

mutual

/-- What checks goes on checking, is tagged in the same way, and leaves the same scope. -/
theorem annotate_ok_mono : (stmt : Stmt) → {annotator later : Annotator} →
    annotator.KnowsMore later → (stmt.annotate annotator).result = .ok () →
    (stmt.annotate later).result = .ok () ∧
      (stmt.annotate later).node = (stmt.annotate annotator).node ∧
      (stmt.annotate annotator).annotator.KnowsMore (stmt.annotate later).annotator
  | .letVar name type, _, _, hmore, _ => ⟨rfl, rfl, hmore.declare name type⟩
  | .assign target value, annotator, later, hmore, hresult => by
    obtain ⟨type, hvalue, hcheck⟩ := bind_eq_ok_iff.1 hresult
    obtain ⟨hlater, hnode⟩ := value.annotate_ok_mono hmore hvalue
    rw [annotate, annotate, hnode]
    exact ⟨bind_eq_ok_iff.2 ⟨type, hlater, (hmore.checkAssign target type).trans hcheck⟩, rfl,
      hmore⟩
  | .ifElse condition thenBranch elseBranch, annotator, later, hmore, hresult => by
    obtain ⟨hcondition, hthen, helse⟩ := annotate_ifElse_ok_iff.1 hresult
    obtain ⟨hconditionLater, hconditionNode⟩ := condition.annotate_ok_mono hmore hcondition
    obtain ⟨hthenLater, hthenNode, hthenMore⟩ := annotate_ok_mono thenBranch hmore hthen
    obtain ⟨helseLater, helseNode, helseMore⟩ := annotate_ok_mono elseBranch hthenMore helse
    obtain ⟨hnode, hleft⟩ := annotate_ifElse_ok elseBranch hcondition hthen
    obtain ⟨hnodeLater, hleftLater⟩ := annotate_ifElse_ok elseBranch hconditionLater hthenLater
    refine ⟨annotate_ifElse_ok_iff.2 ⟨hconditionLater, hthenLater, helseLater⟩, ?_, ?_⟩
    · rw [hnode, hnodeLater, hconditionNode, hthenNode, helseNode]
    · rw [hleft, hleftLater]
      exact helseMore
  | .ret value, annotator, later, hmore, hresult => by
    obtain ⟨type, hvalue, hcheck⟩ := bind_eq_ok_iff.1 hresult
    obtain ⟨hlater, hnode⟩ := value.annotate_ok_mono hmore hvalue
    rw [annotate, annotate, hnode]
    exact ⟨bind_eq_ok_iff.2 ⟨type, hlater, (hmore.checkReturn type).trans hcheck⟩, rfl, hmore⟩
  | .block stmts, annotator, later, hmore, hresult => by
    obtain ⟨hlater, hnode, hleft⟩ := annotateAll_ok_mono stmts hmore hresult
    exact ⟨hlater, congrArg block hnode, hleft⟩

theorem annotateAll_ok_mono : (stmts : List Stmt) → {annotator later : Annotator} →
    annotator.KnowsMore later → (annotateAll annotator stmts).result = .ok () →
    (annotateAll later stmts).result = .ok () ∧
      (annotateAll later stmts).node = (annotateAll annotator stmts).node ∧
      (annotateAll annotator stmts).annotator.KnowsMore (annotateAll later stmts).annotator
  | [], _, _, hmore, _ => ⟨rfl, rfl, hmore⟩
  | stmt :: stmts, annotator, later, hmore, hresult => by
    obtain ⟨hstmt, hstmts⟩ := annotateAll_cons_ok_iff.1 hresult
    obtain ⟨hstmtLater, hstmtNode, hstmtMore⟩ := annotate_ok_mono stmt hmore hstmt
    obtain ⟨hstmtsLater, hstmtsNode, hstmtsMore⟩ := annotateAll_ok_mono stmts hstmtMore hstmts
    obtain ⟨hnode, hleft⟩ := annotateAll_cons_ok stmts hstmt
    obtain ⟨hnodeLater, hleftLater⟩ := annotateAll_cons_ok stmts hstmtLater
    refine ⟨annotateAll_cons_ok_iff.2 ⟨hstmtLater, hstmtsLater⟩, ?_, ?_⟩
    · rw [hnode, hnodeLater, hstmtNode, hstmtsNode]
    · rw [hleft, hleftLater]
      exact hstmtsMore

end

end Stmt

end Frontend
