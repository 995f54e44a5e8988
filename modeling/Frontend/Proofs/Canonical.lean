import Frontend.Tree.Compare
import Frontend.Tree.Source
import Frontend.Proofs.Words
import Mathlib.Algebra.Group.Int.Defs

/-!
# Canonical trees

The trees that a parser can give, as far as one node and its neighbours tell: names are
identifiers, numbers are in range, operators are those of the language, and bodies and
branches are blocks.  Tags are free.

`nesting` counts how deep the source text of a tree nests, by the same rules by which
a derivation counts its indices.  `untagged` is the tree without its tags; it has the same
text and is equal to the tree but for the tags.

A tree is `Plain` if it is canonical and has no tags.  The lemmas `plain_…_iff` say what that
means for each kind of node, both to build plain trees and to take them apart.
-/

namespace Frontend

namespace Expr

/-! ## Expressions -/

mutual

/-- The expression with all tags empty. -/
def untagged : Expr → Expr
  | .int value _ => .int value none
  | .float value _ => .float value none
  | .bool value _ => .bool value none
  | .var name _ => .var name none
  | .unary operator operand _ => .unary operator operand.untagged none
  | .binary operator lhs rhs _ => .binary operator lhs.untagged rhs.untagged none
  | .call callee args _ => .call callee (untaggedAll args) none

/-- Several expressions with all tags empty. -/
def untaggedAll : List Expr → List Expr
  | [] => []
  | expr :: exprs => expr.untagged :: untaggedAll exprs

end

/-- The nesting of an operand: a binary one stands in parentheses. -/
def operandNesting (operand : Expr) (nesting : Nat) : Nat :=
  if operand.isBinary then nesting + 1 else nesting

mutual

/-- How many levels the text of the expression nests: one for the operand of a unary
operator, for a binary expression that is an operand and for an argument. -/
def nesting : Expr → Nat
  | .int .. | .float .. | .bool .. | .var .. => 0
  | .unary _ operand _ => operandNesting operand operand.nesting + 1
  | .binary _ lhs rhs _ => max (operandNesting lhs lhs.nesting) (operandNesting rhs rhs.nesting)
  | .call _ args _ => nestingOfArgs args

/-- How many levels the texts of several arguments nest. -/
def nestingOfArgs : List Expr → Nat
  | [] => 0
  | arg :: args => max (arg.nesting + 1) (nestingOfArgs args)

end

/-- Whether the root is a call. -/
def isCall : Expr → Bool
  | .call .. => true
  | _ => false

mutual

/-- Whether names are identifiers, numbers are literals without a sign, and operators are
those of the language. -/
def isCanonical : Expr → Bool
  | .int value _ => 0 ≤ value && value < 2 ^ 31
  | .float (.finite false _) _ => true
  | .float .. => false
  | .bool .. => true
  | .var name _ => Token.isIdentifier name
  | .unary operator operand _ => operator == "-" && operand.isCanonical
  | .binary operator lhs rhs _ =>
    Operator.all.contains operator && lhs.isCanonical && rhs.isCanonical
  | .call callee args _ => Token.isIdentifier callee && areCanonical args

/-- Whether several expressions are canonical. -/
def areCanonical : List Expr → Bool
  | [] => true
  | expr :: exprs => expr.isCanonical && areCanonical exprs

end

theorem isBinary_untagged (expr : Expr) : expr.untagged.isBinary = expr.isBinary := by
  cases expr <;> rfl

mutual

theorem source_untagged : (expr : Expr) → expr.untagged.source = expr.source
  | .int .. | .float .. | .bool .. | .var .. => rfl
  | .unary operator operand _ => by
    simp only [untagged, source, operandText, isBinary_untagged, source_untagged operand]
  | .binary operator lhs rhs _ => by
    simp only [untagged, source, operandText, isBinary_untagged, source_untagged lhs,
      source_untagged rhs]
  | .call callee args _ => by
    simp only [untagged, source, sourceAll_untaggedAll args]

theorem sourceAll_untaggedAll : (exprs : List Expr) →
    sourceAll (untaggedAll exprs) = sourceAll exprs
  | [] => rfl
  | expr :: exprs => by
    simp only [untaggedAll, sourceAll, source_untagged expr, sourceAll_untaggedAll exprs]

end

mutual

theorem equals_untagged : (expr : Expr) → expr.isCanonical = true →
    expr.equals expr.untagged = true
  | .int .., _ | .bool .., _ | .var .., _ => by
    simp only [untagged, equals, beq_self_eq_true]
  | .float (.finite false rank) _, _ => by
    simp [untagged, equals, Binary64.equals]
  | .unary _ operand _, hcanonical => by
    simp only [isCanonical, Bool.and_eq_true] at hcanonical
    simp only [untagged, equals, beq_self_eq_true, Bool.true_and,
      equals_untagged operand hcanonical.2]
  | .binary _ lhs rhs _, hcanonical => by
    simp only [isCanonical, Bool.and_eq_true] at hcanonical
    simp only [untagged, equals, beq_self_eq_true, Bool.true_and,
      equals_untagged lhs hcanonical.1.2, equals_untagged rhs hcanonical.2]
  | .call _ args _, hcanonical => by
    simp only [isCanonical, Bool.and_eq_true] at hcanonical
    simp only [untagged, equals, beq_self_eq_true, Bool.true_and,
      equalsAll_untaggedAll args hcanonical.2]

theorem equalsAll_untaggedAll : (exprs : List Expr) → areCanonical exprs = true →
    equalsAll exprs (untaggedAll exprs) = true
  | [], _ => rfl
  | expr :: exprs, hcanonical => by
    simp only [areCanonical, Bool.and_eq_true] at hcanonical
    simp only [untaggedAll, equalsAll, equals_untagged expr hcanonical.1,
      equalsAll_untaggedAll exprs hcanonical.2, Bool.and_self]

end

/-- The expression is canonical and has no tags. -/
structure Plain (expr : Expr) : Prop where
  canonical : expr.isCanonical = true
  untagged : expr.untagged = expr

/-- The expressions are canonical and have no tags. -/
def PlainAll (exprs : List Expr) : Prop :=
  areCanonical exprs = true ∧ untaggedAll exprs = exprs

theorem plain_iff {expr : Expr} :
    expr.Plain ↔ expr.isCanonical = true ∧ expr.untagged = expr :=
  ⟨fun hplain => ⟨hplain.canonical, hplain.untagged⟩, fun hplain => ⟨hplain.1, hplain.2⟩⟩

theorem Plain.tag {expr : Expr} (hplain : expr.Plain) : expr.tag = none := by
  rw [← hplain.untagged]
  cases expr <;> rfl

theorem plain_unary_iff {operator : String} {operand : Expr} {tag : Tag} :
    (unary operator operand tag).Plain ↔ tag = none ∧ operator = "-" ∧ operand.Plain := by
  simp only [plain_iff, isCanonical, untagged, Bool.and_eq_true, beq_iff_eq, unary.injEq, true_and]
  grind

theorem plain_binary_iff {operator : String} {lhs rhs : Expr} {tag : Tag} :
    (binary operator lhs rhs tag).Plain ↔
      tag = none ∧ operator ∈ Operator.all ∧ lhs.Plain ∧ rhs.Plain := by
  simp only [plain_iff, isCanonical, untagged, Bool.and_eq_true, List.contains_iff_mem,
    binary.injEq, true_and]
  grind

theorem plain_call_iff {callee : String} {args : List Expr} {tag : Tag} :
    (call callee args tag).Plain ↔
      tag = none ∧ Token.isIdentifier callee = true ∧ PlainAll args := by
  simp only [plain_iff, PlainAll, isCanonical, untagged, Bool.and_eq_true, call.injEq, true_and]
  grind

theorem plainAll_cons_iff {expr : Expr} {exprs : List Expr} :
    PlainAll (expr :: exprs) ↔ expr.Plain ∧ PlainAll exprs := by
  simp only [plain_iff, PlainAll, areCanonical, untaggedAll, Bool.and_eq_true, List.cons.injEq]
  grind

end Expr

namespace Stmt

/-! ## Statements -/

mutual

/-- The statement with all tags empty. -/
def untagged : Stmt → Stmt
  | .letVar name type => .letVar name type
  | .assign target value => .assign target value.untagged
  | .ifElse condition thenBranch elseBranch =>
    .ifElse condition.untagged thenBranch.untagged elseBranch.untagged
  | .ret value => .ret value.untagged
  | .block stmts => .block (untaggedAll stmts)

/-- Several statements with all tags empty. -/
def untaggedAll : List Stmt → List Stmt
  | [] => []
  | stmt :: stmts => stmt.untagged :: untaggedAll stmts

end

/-- The nesting of a branch: one more for another choice after `else`, and for a statement
that is put into braces. -/
def branchNesting (branch : Stmt) (nesting : Nat) : Nat :=
  if branch.isBlock then nesting else nesting + 1

mutual

/-- How many levels the text of the statement nests: those of expressions, one for a
statement in a block and one for another choice after `else`. -/
def nesting : Stmt → Nat
  | .letVar .. => 0
  | .assign _ value => value.nesting
  | .ifElse condition thenBranch elseBranch =>
    max condition.nesting (max (branchNesting thenBranch thenBranch.nesting)
      (branchNesting elseBranch elseBranch.nesting))
  | .ret value => value.nesting
  | .block stmts => nestingOfAll stmts

/-- How many levels the texts of the statements of a block nest. -/
def nestingOfAll : List Stmt → Nat
  | [] => 0
  | stmt :: stmts => max (stmt.nesting + 1) (nestingOfAll stmts)

end

mutual

/-- Whether names are identifiers, expressions are canonical, only calls are dropped, and
branches are blocks, but for another choice after `else`. -/
def isCanonical : Stmt → Bool
  | .letVar name type => Token.isIdentifier name && Token.isIdentifier type
  | .assign target value =>
    (if target == discard then value.isCall else Token.isIdentifier target) && value.isCanonical
  | .ifElse condition thenBranch elseBranch =>
    condition.isCanonical && (thenBranch.isBlock && thenBranch.isCanonical) &&
      ((elseBranch.isBlock || elseBranch.isIfElse) && elseBranch.isCanonical)
  | .ret value => value.isCanonical
  | .block stmts => areCanonical stmts

/-- Whether several statements are canonical. -/
def areCanonical : List Stmt → Bool
  | [] => true
  | stmt :: stmts => stmt.isCanonical && areCanonical stmts

end

theorem isBlock_untagged (stmt : Stmt) : stmt.untagged.isBlock = stmt.isBlock := by
  cases stmt <;> rfl

theorem isIfElse_untagged (stmt : Stmt) : stmt.untagged.isIfElse = stmt.isIfElse := by
  cases stmt <;> rfl

theorem assignSource_untagged (target : String) (value : Expr) :
    assignSource target value.untagged = assignSource target value := by
  have hsource := value.source_untagged
  cases value <;> simp only [assignSource, Expr.untagged] at hsource ⊢ <;> rw [hsource]

mutual

theorem sourceAt_untagged : (stmt : Stmt) → (depth : Nat) →
    stmt.untagged.sourceAt depth = stmt.sourceAt depth
  | .letVar .., _ => rfl
  | .assign target value, _ => assignSource_untagged target value
  | .ifElse condition thenBranch elseBranch, depth => by
    simp only [untagged, sourceAt, condition.source_untagged, isBlock_untagged, isIfElse_untagged,
      sourceAt_untagged thenBranch, sourceAt_untagged elseBranch]
  | .ret value, _ => by
    simp only [untagged, sourceAt, value.source_untagged]
  | .block stmts, depth => by
    simp only [untagged, sourceAt, sourcesAt_untaggedAll stmts]

theorem sourcesAt_untaggedAll : (stmts : List Stmt) → (depth : Nat) →
    sourcesAt (untaggedAll stmts) depth = sourcesAt stmts depth
  | [], _ => rfl
  | stmt :: stmts, depth => by
    simp only [untaggedAll, sourcesAt, sourceAt_untagged stmt, sourcesAt_untaggedAll stmts]

end

theorem blockSource_untagged (stmt : Stmt) : stmt.untagged.blockSource = stmt.blockSource := by
  simp only [blockSource, isBlock_untagged, sourceAt_untagged]

mutual

theorem equals_untagged : (stmt : Stmt) → stmt.isCanonical = true →
    stmt.equals stmt.untagged = true
  | .letVar .., _ => by
    simp only [untagged, equals, beq_self_eq_true, Bool.and_self]
  | .assign _ value, hcanonical => by
    simp only [isCanonical, Bool.and_eq_true] at hcanonical
    simp only [untagged, equals, beq_self_eq_true, Bool.true_and,
      value.equals_untagged hcanonical.2]
  | .ifElse condition thenBranch elseBranch, hcanonical => by
    simp only [isCanonical, Bool.and_eq_true] at hcanonical
    obtain ⟨⟨hcondition, -, hthen⟩, -, helse⟩ := hcanonical
    simp only [untagged, equals, condition.equals_untagged hcondition,
      equals_untagged thenBranch hthen, equals_untagged elseBranch helse, Bool.and_self]
  | .ret value, hcanonical => by
    simp only [isCanonical] at hcanonical
    simp only [untagged, equals, value.equals_untagged hcanonical]
  | .block stmts, hcanonical => by
    simp only [isCanonical] at hcanonical
    simp only [untagged, equals, equalsAll_untaggedAll stmts hcanonical]

theorem equalsAll_untaggedAll : (stmts : List Stmt) → areCanonical stmts = true →
    equalsAll stmts (untaggedAll stmts) = true
  | [], _ => rfl
  | stmt :: stmts, hcanonical => by
    simp only [areCanonical, Bool.and_eq_true] at hcanonical
    simp only [untaggedAll, equalsAll, equals_untagged stmt hcanonical.1,
      equalsAll_untaggedAll stmts hcanonical.2, Bool.and_self]

end

/-- The statement is canonical and has no tags. -/
structure Plain (stmt : Stmt) : Prop where
  canonical : stmt.isCanonical = true
  untagged : stmt.untagged = stmt

/-- The statements are canonical and have no tags. -/
def PlainAll (stmts : List Stmt) : Prop :=
  areCanonical stmts = true ∧ untaggedAll stmts = stmts

theorem plain_iff {stmt : Stmt} :
    stmt.Plain ↔ stmt.isCanonical = true ∧ stmt.untagged = stmt :=
  ⟨fun hplain => ⟨hplain.canonical, hplain.untagged⟩, fun hplain => ⟨hplain.1, hplain.2⟩⟩

theorem plain_assign_iff {target : String} {value : Expr} :
    (assign target value).Plain ↔
      (if target == discard then value.isCall else Token.isIdentifier target) = true ∧
        value.Plain := by
  simp only [plain_iff, Expr.plain_iff, isCanonical, untagged, Bool.and_eq_true, assign.injEq,
    true_and]
  grind

theorem plain_ifElse_iff {condition : Expr} {thenBranch elseBranch : Stmt} :
    (ifElse condition thenBranch elseBranch).Plain ↔
      condition.Plain ∧ (thenBranch.isBlock = true ∧ thenBranch.Plain) ∧
        (elseBranch.isBlock || elseBranch.isIfElse) = true ∧ elseBranch.Plain := by
  simp only [plain_iff, Expr.plain_iff, isCanonical, untagged, Bool.and_eq_true, ifElse.injEq]
  grind

theorem plain_ret_iff {value : Expr} : (ret value).Plain ↔ value.Plain := by
  simp only [plain_iff, Expr.plain_iff, isCanonical, untagged, ret.injEq]

theorem plain_block_iff {stmts : List Stmt} : (block stmts).Plain ↔ PlainAll stmts := by
  simp only [plain_iff, PlainAll, isCanonical, untagged, block.injEq]

theorem plainAll_cons_iff {stmt : Stmt} {stmts : List Stmt} :
    PlainAll (stmt :: stmts) ↔ stmt.Plain ∧ PlainAll stmts := by
  simp only [plain_iff, PlainAll, areCanonical, untaggedAll, Bool.and_eq_true, List.cons.injEq]
  grind

end Stmt

/-! ## Declarations and modules -/

/-- Whether name and type are identifiers. -/
def Param.isCanonical (param : Param) : Bool :=
  Token.isIdentifier param.name && Token.isIdentifier param.type

/-- Whether all names and types are identifiers. -/
def Prototype.isCanonical (proto : Prototype) : Bool :=
  Token.isIdentifier proto.name && proto.params.all Param.isCanonical &&
    Token.isIdentifier proto.returnType

namespace Decl

/-- The declaration with all tags empty. -/
def untagged (decl : Decl) : Decl :=
  ⟨decl.proto, decl.body.map Stmt.untagged⟩

/-- How many levels the text of the declaration nests. -/
def nesting (decl : Decl) : Nat :=
  match decl.body with
  | some body => Stmt.branchNesting body body.nesting
  | none => 0

/-- Whether the prototype is canonical and the body, if there is one, is a canonical block. -/
def isCanonical (decl : Decl) : Bool :=
  decl.proto.isCanonical && decl.body.all fun body => body.isBlock && body.isCanonical

theorem source_untagged (decl : Decl) : decl.untagged.source = decl.source := by
  obtain ⟨proto, _ | body⟩ := decl
  · rfl
  · simp only [untagged, source, Option.map_some, Stmt.blockSource_untagged]

theorem equals_untagged {decl : Decl} (hcanonical : decl.isCanonical = true) :
    decl.equals decl.untagged = true := by
  obtain ⟨proto, _ | body⟩ := decl
  · simp [untagged, equals, sameBody]
  · simp only [isCanonical, Option.all_some, Bool.and_eq_true] at hcanonical
    simp only [untagged, equals, sameBody, Option.map_some, beq_self_eq_true, Bool.true_and,
      body.equals_untagged hcanonical.2.2]

/-- The declaration is canonical and has no tags. -/
structure Plain (decl : Decl) : Prop where
  proto : decl.proto.isCanonical = true
  body : ∀ body ∈ decl.body, body.isBlock = true ∧ body.Plain

theorem plain_iff {decl : Decl} :
    decl.Plain ↔ decl.isCanonical = true ∧ decl.untagged = decl := by
  obtain ⟨proto, body⟩ := decl
  cases body with
  | none =>
    refine ⟨fun hplain => ⟨?_, rfl⟩, fun hplain => ⟨?_, nofun⟩⟩
    · simp [isCanonical, hplain.proto]
    · simpa [isCanonical] using hplain.1
  | some body =>
    simp only [isCanonical, untagged, Option.all_some, Option.map_some, Bool.and_eq_true, mk.injEq,
      Option.some.injEq, true_and]
    constructor
    · intro hplain
      obtain ⟨hblock, hbody⟩ := hplain.body body rfl
      exact ⟨⟨hplain.proto, hblock, hbody.canonical⟩, hbody.untagged⟩
    · rintro ⟨⟨hproto, hblock, hbody⟩, huntagged⟩
      refine ⟨hproto, ?_⟩
      rintro _ ⟨⟩
      exact ⟨hblock, hbody, huntagged⟩

theorem Plain.name {decl : Decl} (hplain : decl.Plain) :
    Token.isIdentifier decl.proto.name = true := by
  have hproto := hplain.proto
  simp only [Prototype.isCanonical, Bool.and_eq_true] at hproto
  exact hproto.1.1

theorem Plain.canonical {decl : Decl} (hplain : decl.Plain) : decl.isCanonical = true :=
  (plain_iff.1 hplain).1

theorem Plain.untagged {decl : Decl} (hplain : decl.Plain) : decl.untagged = decl :=
  (plain_iff.1 hplain).2

end Decl

namespace Module

/-- The module with all tags empty. -/
def untagged (module : Module) : Module :=
  ⟨module.name, module.decls.map Decl.untagged⟩

/-- How many levels the text of several declarations nests. -/
def nestingOfDecls : List Decl → Nat
  | [] => 0
  | decl :: decls => max decl.nesting (nestingOfDecls decls)

/-- How many levels the text of the module nests. -/
def nesting (module : Module) : Nat :=
  nestingOfDecls module.decls

/-- Whether all declarations are canonical. -/
def isCanonical (module : Module) : Bool :=
  module.decls.all Decl.isCanonical

theorem source_untagged (module : Module) : module.untagged.source = module.source := by
  have hdecls : Decl.source ∘ Decl.untagged = Decl.source := funext Decl.source_untagged
  simp only [untagged, source, List.map_map, hdecls]

theorem sameDecls_untagged {decls : List Decl} (hcanonical : decls.all Decl.isCanonical = true) :
    sameDecls Decl.equals decls (decls.map Decl.untagged) = true := by
  induction decls with
  | nil => rfl
  | cons decl decls ih =>
    rw [List.all_cons, Bool.and_eq_true] at hcanonical
    simp only [List.map_cons, sameDecls, Decl.equals_untagged hcanonical.1, ih hcanonical.2,
      Bool.and_self]

theorem equals_untagged {module : Module} (hcanonical : module.isCanonical = true) :
    module.equals module.untagged = true := by
  simp only [untagged, equals, beq_self_eq_true, Bool.true_and, sameDecls_untagged hcanonical]

end Module

end Frontend
