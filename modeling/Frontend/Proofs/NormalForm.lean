import Frontend.Proofs.Canonical
import Mathlib.Algebra.Group.Nat.Defs

/-!
# Normal forms

Trees that are built by hand can have shapes that no source is parsed to: a branch that is no
block, or a literal with a sign.  Their text is that of the tree which one would write instead.
`normal` gives that tree.  A branch or body that is no block becomes the block that holds only it,
except for another choice after `else`, and a literal with a sign becomes the negation of the
literal without it.

* Literals.  The sign that the text of a literal begins with is the operator of the negation.
* Expressions.  A negation takes the place of a literal only (`root_normal`), so no operand gets
  or loses parentheses and no assignment becomes or ceases to be a bare call.
* Statements.  The block around a lone statement is laid out as the braces around it are, at
  every depth (`sourceAt_asBlock`).
* `text_of_normal_form` is the result for statements, declarations and modules.
-/

namespace Frontend

/-! ## Literals -/

namespace Expr

/-- The integer literal without a sign.  The least integer of 32 bits stays as it is: there is no
literal for its magnitude. -/
def normalInt (value : Int) (tag : Tag) : Expr :=
  if value < 0 ∧ value.natAbs < 2 ^ 31 then .unary "-" (.int value.natAbs tag) tag
  else .int value tag

/-- The float literal without a sign.  Numbers that are not finite stay as they are. -/
def normalFloat (value : Binary64) (tag : Tag) : Expr :=
  match value with
  | .finite true rank => .unary "-" (.float (.finite false rank) tag) tag
  | _ => .float value tag

theorem integerText_of_neg {value : Int} (hneg : value < 0) :
    Text.integerText value = "-" ++ Text.integerText value.natAbs := by
  have hnonneg : ¬(value.natAbs : Int) < 0 := by omega
  rw [← String.toList_inj, String.toList_append, Text.integerText, Text.integerText, if_pos hneg,
    if_neg hnonneg, Int.natAbs_natCast, String.toList_ofList]
  simp only [String.toList_ofList]
  rfl

theorem literal_of_negative (rank : Fin Binary64.rankBound) :
    (Binary64.finite true rank).literal = "-" ++ (Binary64.finite false rank).literal := by
  have htext : (Binary64.finite true rank).text = "-" ++ (Binary64.finite false rank).text := by
    rw [← String.toList_inj]
    simp [Binary64.text]
  -- the sign is no point, so both texts get the point and the zero or neither does
  have hpoint : (Binary64.finite true rank).text.toList.contains '.' =
      (Binary64.finite false rank).text.toList.contains '.' := by
    rw [htext]
    simp
  unfold Binary64.literal
  dsimp only [Binary64.isFinite]
  rw [hpoint, htext]
  cases (Binary64.finite false rank).text.toList.contains '.' with
  | false => exact String.append_assoc
  | true => rfl

/-! ## Expressions -/

mutual

/-- The expression with the negation of a literal in place of every literal with a sign. -/
def normal : Expr → Expr
  | .int value tag => normalInt value tag
  | .float value tag => normalFloat value tag
  | .bool value tag => .bool value tag
  | .var name tag => .var name tag
  | .unary operator operand tag => .unary operator operand.normal tag
  | .binary operator lhs rhs tag => .binary operator lhs.normal rhs.normal tag
  | .call callee args tag => .call callee (normalAll args) tag

/-- Several expressions in normal form. -/
def normalAll : List Expr → List Expr
  | [] => []
  | expr :: exprs => expr.normal :: normalAll exprs

end

theorem source_normalInt (value : Int) (tag : Tag) :
    (normalInt value tag).source = Text.integerText value := by
  unfold normalInt
  split
  · rename_i hsigned
    exact (integerText_of_neg hsigned.1).symm
  · rfl

theorem source_normalFloat (value : Binary64) (tag : Tag) :
    (normalFloat value tag).source = value.literal := by
  unfold normalFloat
  split
  · rename_i rank
    exact (literal_of_negative rank).symm
  · rfl

theorem normal_normalInt (value : Int) (tag : Tag) :
    (normalInt value tag).normal = normalInt value tag := by
  unfold normalInt
  split
  · have hnonneg : ¬((value.natAbs : Int) < 0 ∧ (value.natAbs : Int).natAbs < 2 ^ 31) := by omega
    rw [normal, normal, normalInt, if_neg hnonneg]
  · rename_i hunsigned
    rw [normal, normalInt, if_neg hunsigned]

theorem normal_normalFloat (value : Binary64) (tag : Tag) :
    (normalFloat value tag).normal = normalFloat value tag := by
  unfold normalFloat
  split
  · rfl
  · rename_i hunsigned
    rw [normal, normalFloat.eq_def]
    split
    · rename_i rank
      exact absurd rfl (hunsigned rank)
    · rfl

/-- Only a literal gets another root, and the negation is neither a binary operator nor a call. -/
theorem root_normal (expr : Expr) :
    expr.normal.isBinary = expr.isBinary ∧ expr.normal.isCall = expr.isCall := by
  cases expr with
  | int value tag =>
    rw [normal, normalInt]
    split <;> exact ⟨rfl, rfl⟩
  | float value tag =>
    rw [normal, normalFloat.eq_def]
    split <;> exact ⟨rfl, rfl⟩
  | _ => exact ⟨rfl, rfl⟩

mutual

theorem source_normal : (expr : Expr) → expr.normal.source = expr.source
  | .int value tag => source_normalInt value tag
  | .float value tag => source_normalFloat value tag
  | .bool .. | .var .. => rfl
  | .unary operator operand _ => by
    simp only [normal, source, operandText, operand.root_normal.1, source_normal operand]
  | .binary operator lhs rhs _ => by
    simp only [normal, source, operandText, lhs.root_normal.1, rhs.root_normal.1,
      source_normal lhs, source_normal rhs]
  | .call callee args _ => by
    simp only [normal, source, sourceAll_normalAll args]

theorem sourceAll_normalAll : (exprs : List Expr) →
    sourceAll (normalAll exprs) = sourceAll exprs
  | [] => rfl
  | expr :: exprs => by
    simp only [normalAll, sourceAll, source_normal expr, sourceAll_normalAll exprs]

end

mutual

theorem normal_normal : (expr : Expr) → expr.normal.normal = expr.normal
  | .int value tag => normal_normalInt value tag
  | .float value tag => normal_normalFloat value tag
  | .bool .. | .var .. => rfl
  | .unary _ operand _ => by
    simp only [normal, normal_normal operand]
  | .binary _ lhs rhs _ => by
    simp only [normal, normal_normal lhs, normal_normal rhs]
  | .call _ args _ => by
    simp only [normal, normalAll_normalAll args]

theorem normalAll_normalAll : (exprs : List Expr) → normalAll (normalAll exprs) = normalAll exprs
  | [] => rfl
  | expr :: exprs => by
    simp only [normalAll, normal_normal expr, normalAll_normalAll exprs]

end

end Expr

/-! ## Statements -/

namespace Stmt

/-- The statement as a block: itself if it is one, and else the block that holds only it. -/
def asBlock (stmt : Stmt) : Stmt :=
  if stmt.isBlock then stmt else .block [stmt]

/-- The statement as it can stand after `else`: a block or another choice. -/
def asAlternative (stmt : Stmt) : Stmt :=
  if stmt.isIfElse then stmt else stmt.asBlock

mutual

/-- The statement with blocks for branches and without literals that have a sign. -/
def normal : Stmt → Stmt
  | .letVar name type => .letVar name type
  | .assign target value => .assign target value.normal
  | .ifElse condition thenBranch elseBranch =>
    .ifElse condition.normal thenBranch.normal.asBlock elseBranch.normal.asAlternative
  | .ret value => .ret value.normal
  | .block stmts => .block (normalAll stmts)

/-- Several statements in normal form. -/
def normalAll : List Stmt → List Stmt
  | [] => []
  | stmt :: stmts => stmt.normal :: normalAll stmts

end

theorem isBlock_normal (stmt : Stmt) : stmt.normal.isBlock = stmt.isBlock := by
  cases stmt <;> rfl

theorem isIfElse_normal (stmt : Stmt) : stmt.normal.isIfElse = stmt.isIfElse := by
  cases stmt <;> rfl

/-- The braces around a lone statement are those of the block that holds only it. -/
theorem sourceAt_asBlock (stmt : Stmt) (depth : Nat) :
    stmt.asBlock.sourceAt depth =
      if stmt.isBlock then stmt.sourceAt depth else braces depth [stmt.sourceAt (depth + 1)] := by
  unfold asBlock
  split
  · rfl
  · rw [sourceAt, sourcesAt, sourcesAt]

theorem sourceAt_asAlternative (stmt : Stmt) (depth : Nat) :
    stmt.asAlternative.sourceAt depth =
      if stmt.isBlock || stmt.isIfElse then stmt.sourceAt depth
      else braces depth [stmt.sourceAt (depth + 1)] := by
  unfold asAlternative
  by_cases hchoice : stmt.isIfElse = true
  · simp only [hchoice, if_true, Bool.or_true]
  · simp only [hchoice, Bool.false_eq_true, if_false, Bool.or_false, sourceAt_asBlock]

theorem isBlock_asBlock (stmt : Stmt) : stmt.asBlock.isBlock = true := by
  unfold asBlock
  split
  · assumption
  · rfl

theorem asBlock_asBlock (stmt : Stmt) : stmt.asBlock.asBlock = stmt.asBlock :=
  if_pos stmt.isBlock_asBlock

theorem isBlock_or_isIfElse_asAlternative (stmt : Stmt) :
    (stmt.asAlternative.isBlock || stmt.asAlternative.isIfElse) = true := by
  unfold asAlternative
  split
  · rename_i hchoice
    rw [hchoice, Bool.or_true]
  · rw [isBlock_asBlock, Bool.true_or]

theorem asAlternative_asAlternative (stmt : Stmt) :
    stmt.asAlternative.asAlternative = stmt.asAlternative := by
  by_cases hchoice : stmt.isIfElse = true
  · simp only [asAlternative, hchoice, if_true]
  · have hblock : stmt.asAlternative = stmt.asBlock := if_neg hchoice
    rw [hblock, asAlternative, asBlock_asBlock, ite_self]

theorem normal_asBlock (stmt : Stmt) : stmt.asBlock.normal = stmt.normal.asBlock := by
  unfold asBlock
  rw [isBlock_normal]
  split
  · rfl
  · rw [normal, normalAll, normalAll]

theorem normal_asAlternative (stmt : Stmt) :
    stmt.asAlternative.normal = stmt.normal.asAlternative := by
  unfold asAlternative
  rw [isIfElse_normal]
  split
  · rfl
  · exact normal_asBlock stmt

/-- How an assignment is written depends on its value only through whether it is a call. -/
theorem assignSource_eq (target : String) (value : Expr) :
    assignSource target value =
      if value.isCall && target == discard then value.source
      else target ++ " = " ++ value.source := by
  cases value <;> simp [assignSource, Expr.isCall]

theorem assignSource_normal (target : String) (value : Expr) :
    assignSource target value.normal = assignSource target value := by
  rw [assignSource_eq, assignSource_eq, value.root_normal.2, value.source_normal]

mutual

theorem sourceAt_normal : (stmt : Stmt) → (depth : Nat) →
    stmt.normal.sourceAt depth = stmt.sourceAt depth
  | .letVar .., _ => rfl
  | .assign target value, _ => assignSource_normal target value
  | .ifElse condition thenBranch elseBranch, depth => by
    simp only [normal, sourceAt, condition.source_normal, isBlock_asBlock, if_true,
      isBlock_or_isIfElse_asAlternative, sourceAt_asBlock, sourceAt_asAlternative, isBlock_normal,
      isIfElse_normal, sourceAt_normal thenBranch, sourceAt_normal elseBranch]
  | .ret value, _ => by
    simp only [normal, sourceAt, value.source_normal]
  | .block stmts, depth => by
    simp only [normal, sourceAt, sourcesAt_normalAll stmts]

theorem sourcesAt_normalAll : (stmts : List Stmt) → (depth : Nat) →
    sourcesAt (normalAll stmts) depth = sourcesAt stmts depth
  | [], _ => rfl
  | stmt :: stmts, depth => by
    simp only [normalAll, sourcesAt, sourceAt_normal stmt, sourcesAt_normalAll stmts]

end

mutual

theorem normal_normal : (stmt : Stmt) → stmt.normal.normal = stmt.normal
  | .letVar .. => rfl
  | .assign target value => by
    simp only [normal, value.normal_normal]
  | .ifElse condition thenBranch elseBranch => by
    simp only [normal, condition.normal_normal, normal_asBlock, normal_asAlternative,
      normal_normal thenBranch, normal_normal elseBranch, asBlock_asBlock,
      asAlternative_asAlternative]
  | .ret value => by
    simp only [normal, value.normal_normal]
  | .block stmts => by
    simp only [normal, normalAll_normalAll stmts]

theorem normalAll_normalAll : (stmts : List Stmt) → normalAll (normalAll stmts) = normalAll stmts
  | [] => rfl
  | stmt :: stmts => by
    simp only [normalAll, normal_normal stmt, normalAll_normalAll stmts]

end

theorem blockSource_eq (stmt : Stmt) : stmt.blockSource = stmt.asBlock.sourceAt 0 := by
  rw [sourceAt_asBlock, blockSource]

end Stmt

/-! ## Declarations and modules -/

/-- The declaration with a block for a body, in normal form. -/
def Decl.normal (decl : Decl) : Decl :=
  ⟨decl.proto, decl.body.map fun body => body.normal.asBlock⟩

theorem Decl.source_normal (decl : Decl) : decl.normal.source = decl.source := by
  obtain ⟨proto, _ | body⟩ := decl
  · rfl
  · simp only [normal, source, Option.map_some, Stmt.blockSource_eq, Stmt.asBlock_asBlock,
      ← Stmt.normal_asBlock, Stmt.sourceAt_normal]

theorem Decl.normal_normal (decl : Decl) : decl.normal.normal = decl.normal := by
  obtain ⟨proto, _ | body⟩ := decl
  · rfl
  · simp only [normal, Option.map_some, Stmt.normal_asBlock, Stmt.normal_normal,
      Stmt.asBlock_asBlock]

/-- The module with its declarations in normal form. -/
def Module.normal (module : Module) : Module :=
  ⟨module.name, module.decls.map Decl.normal⟩

theorem Module.source_normal (module : Module) : module.normal.source = module.source := by
  have hdecls : Decl.source ∘ Decl.normal = Decl.source := funext Decl.source_normal
  simp only [normal, source, List.map_map, hdecls]

theorem Module.normal_normal (module : Module) : module.normal.normal = module.normal := by
  have hdecls : Decl.normal ∘ Decl.normal = Decl.normal := funext Decl.normal_normal
  simp only [normal, List.map_map, hdecls]

/-- A statement has the text of its normal form, however deep it stands, and so have declarations
and modules.  A normal form is its own. -/
theorem text_of_normal_form (stmt : Stmt) (decl : Decl) (module : Module) :
    ((∀ depth, stmt.normal.sourceAt depth = stmt.sourceAt depth) ∧
      stmt.normal.source = stmt.source ∧ stmt.normal.normal = stmt.normal) ∧
    (decl.normal.source = decl.source ∧ decl.normal.normal = decl.normal) ∧
    module.normal.source = module.source ∧ module.normal.normal = module.normal :=
  ⟨⟨stmt.sourceAt_normal, stmt.sourceAt_normal 0, stmt.normal_normal⟩,
    ⟨decl.source_normal, decl.normal_normal⟩, module.source_normal, module.normal_normal⟩

example :
    (Stmt.ifElse (.var "b" none) (.ret (.int (-1) none)) (.ret (.int 1 none))).normal =
      .ifElse (.var "b" none) (.block [.ret (.unary "-" (.int 1 none) none)])
        (.block [.ret (.int 1 none)]) := rfl

end Frontend
