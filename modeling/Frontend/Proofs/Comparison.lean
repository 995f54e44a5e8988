import Frontend.Proofs.Annotation.Filling
import Frontend.Proofs.Annotation.Operators

/-!
# Comparison of trees

There are two comparisons of trees.  `identical` looks at everything, and `equals` at all but the
tags.  Both compare float literals as numbers, for which there is one zero and a NaN that is not
equal to itself, so neither is equality of trees.

* What is compared.  `content` is what `equals` sees of a tree: no tags and one zero.  Two trees
  are equal exactly if they have the same content and there is no NaN in it (`equals_iff`).  So
  the comparison is symmetric and transitive because equality is, and reflexive but for NaNs.
* Tags.  They are listed in the order of the tree, and equal trees have as many of them.
  So two equal trees are identical exactly if their lists of tags are (`identical_iff`), and
  always once the tags are gone (`equals_eq_identical_untagged`).
* `Tree.comparison_laws` is the result for all kinds of trees.
-/

namespace Frontend

/-! ## Numbers -/

namespace Binary64

/-- The number as it is compared: the two zeros are one. -/
def content : Binary64 → Binary64
  | .nan => .nan
  | .infinite negative => .infinite negative
  | .finite negative rank => .finite (negative && rank.val != 0) rank

theorem equals_iff {number other : Binary64} :
    number.equals other = true ↔ number.content = other.content ∧ number ≠ .nan := by
  cases number <;> cases other <;> simp [equals, content]
  grind

theorem content_eq_nan_iff {number : Binary64} : number.content = .nan ↔ number = .nan := by
  cases number <;> simp [content]

end Binary64

/-! ## Expressions -/

namespace Expr

/-- None of the expressions is the literal of a NaN. -/
def NaNFree (nodes : List Expr) : Prop :=
  ∀ tag, .float .nan tag ∉ nodes

@[simp]
theorem nanFree_nil : NaNFree [] :=
  nofun

@[simp]
theorem nanFree_cons {node : Expr} {nodes : List Expr} :
    NaNFree (node :: nodes) ↔ (∀ tag, node ≠ .float .nan tag) ∧ NaNFree nodes := by
  simp [NaNFree, forall_and, eq_comm]

@[simp]
theorem nanFree_append {nodes others : List Expr} :
    NaNFree (nodes ++ others) ↔ NaNFree nodes ∧ NaNFree others := by
  simp [NaNFree, forall_and]

mutual

/-- The expression as it is compared: without tags, and with one zero. -/
def content : Expr → Expr
  | .int value _ => .int value none
  | .float value _ => .float value.content none
  | .bool value _ => .bool value none
  | .var name _ => .var name none
  | .unary operator operand _ => .unary operator operand.content none
  | .binary operator lhs rhs _ => .binary operator lhs.content rhs.content none
  | .call callee args _ => .call callee (contentOfAll args) none

/-- Several expressions as they are compared. -/
def contentOfAll : List Expr → List Expr
  | [] => []
  | expr :: exprs => expr.content :: contentOfAll exprs

end

-- In each case the other expression has the same root, or both sides are false.
mutual

theorem equals_iff : (expr other : Expr) →
    (expr.equals other = true ↔ expr.content = other.content ∧ NaNFree expr.nodes)
  | .int value _, other | .bool value _, other | .var value _, other => by
    cases other <;> simp [equals, content, nodes]
  | .float value _, other => by
    cases other <;> simp [equals, content, nodes, Binary64.equals_iff]
  | .unary operator operand _, other => by
    have hoperand := equals_iff operand
    cases other <;> simp [equals, content, nodes, hoperand, and_assoc]
  | .binary operator lhs rhs _, other => by
    have hlhs := equals_iff lhs
    have hrhs := equals_iff rhs
    cases other <;> simp [equals, content, nodes, hlhs, hrhs]
    grind
  | .call callee args _, other => by
    have hargs := equalsAll_iff args
    cases other <;> simp [equals, content, nodes, hargs, and_assoc]

theorem equalsAll_iff : (exprs others : List Expr) →
    (equalsAll exprs others = true ↔
      contentOfAll exprs = contentOfAll others ∧ NaNFree (nodesOfAll exprs))
  | [], others => by
    cases others <;> simp [equalsAll, contentOfAll, nodesOfAll]
  | expr :: exprs, others => by
    have hexpr := equals_iff expr
    have hexprs := equalsAll_iff exprs
    cases others <;> simp [equalsAll, contentOfAll, nodesOfAll, hexpr, hexprs]
    grind

end

mutual

theorem content_untagged : (expr : Expr) → expr.untagged.content = expr.content
  | .int .. | .float .. | .bool .. | .var .. => rfl
  | .unary _ operand _ => by
    simp only [untagged, content, content_untagged operand]
  | .binary _ lhs rhs _ => by
    simp only [untagged, content, content_untagged lhs, content_untagged rhs]
  | .call _ args _ => by
    simp only [untagged, content, contentOfAll_untaggedAll args]

theorem contentOfAll_untaggedAll : (exprs : List Expr) →
    contentOfAll (untaggedAll exprs) = contentOfAll exprs
  | [] => rfl
  | expr :: exprs => by
    simp only [untaggedAll, contentOfAll, content_untagged expr, contentOfAll_untaggedAll exprs]

end

mutual

theorem nanFree_content : (expr : Expr) → (NaNFree expr.content.nodes ↔ NaNFree expr.nodes)
  | .int .. | .bool .. | .var .. => by simp [content, nodes]
  | .float .. => by simp [content, nodes, Binary64.content_eq_nan_iff]
  | .unary _ operand _ => by
    simp [content, nodes, nanFree_content operand]
  | .binary _ lhs rhs _ => by
    simp [content, nodes, nanFree_content lhs, nanFree_content rhs]
  | .call _ args _ => by
    simp [content, nodes, nanFree_contentOfAll args]

theorem nanFree_contentOfAll : (exprs : List Expr) →
    (NaNFree (nodesOfAll (contentOfAll exprs)) ↔ NaNFree (nodesOfAll exprs))
  | [] => by simp [contentOfAll]
  | expr :: exprs => by
    simp [contentOfAll, nodesOfAll, nanFree_content expr, nanFree_contentOfAll exprs]

end

mutual

/-- A canonical expression has no second zero, so only its tags are left out. -/
theorem content_of_canonical : (expr : Expr) → expr.isCanonical = true →
    expr.content = expr.untagged
  | .int .., _ | .bool .., _ | .var .., _ => rfl
  | .float (.finite false _) _, _ => rfl
  | .unary _ operand _, hcanonical => by
    simp only [isCanonical, Bool.and_eq_true] at hcanonical
    simp only [content, untagged, content_of_canonical operand hcanonical.2]
  | .binary _ lhs rhs _, hcanonical => by
    simp only [isCanonical, Bool.and_eq_true] at hcanonical
    simp only [content, untagged, content_of_canonical lhs hcanonical.1.2,
      content_of_canonical rhs hcanonical.2]
  | .call _ args _, hcanonical => by
    simp only [isCanonical, Bool.and_eq_true] at hcanonical
    simp only [content, untagged, contentOfAll_of_canonical args hcanonical.2]

theorem contentOfAll_of_canonical : (exprs : List Expr) → areCanonical exprs = true →
    contentOfAll exprs = untaggedAll exprs
  | [], _ => rfl
  | expr :: exprs, hcanonical => by
    simp only [areCanonical, Bool.and_eq_true] at hcanonical
    simp only [contentOfAll, untaggedAll, content_of_canonical expr hcanonical.1,
      contentOfAll_of_canonical exprs hcanonical.2]

end

/-! ### Tags -/

mutual

theorem tags_content : (expr : Expr) → expr.content.tags = expr.tags.map fun _ => none
  | .int .. | .float .. | .bool .. | .var .. => rfl
  | .unary _ operand _ => by
    simp only [content, tags, List.map_cons, tags_content operand]
  | .binary _ lhs rhs _ => by
    simp only [content, tags, List.map_cons, List.map_append, tags_content lhs, tags_content rhs]
  | .call _ args _ => by
    simp only [content, tags, List.map_cons, tagsOfAll_contentOfAll args]

theorem tagsOfAll_contentOfAll : (exprs : List Expr) →
    tagsOfAll (contentOfAll exprs) = (tagsOfAll exprs).map fun _ => none
  | [] => rfl
  | expr :: exprs => by
    simp only [contentOfAll, tagsOfAll, List.map_append, tags_content expr,
      tagsOfAll_contentOfAll exprs]

end

mutual

theorem tags_untagged : (expr : Expr) → expr.untagged.tags = expr.tags.map fun _ => none
  | .int .. | .float .. | .bool .. | .var .. => rfl
  | .unary _ operand _ => by
    simp only [untagged, tags, List.map_cons, tags_untagged operand]
  | .binary _ lhs rhs _ => by
    simp only [untagged, tags, List.map_cons, List.map_append, tags_untagged lhs, tags_untagged rhs]
  | .call _ args _ => by
    simp only [untagged, tags, List.map_cons, tagsOfAll_untaggedAll args]

theorem tagsOfAll_untaggedAll : (exprs : List Expr) →
    tagsOfAll (untaggedAll exprs) = (tagsOfAll exprs).map fun _ => none
  | [] => rfl
  | expr :: exprs => by
    simp only [untaggedAll, tagsOfAll, List.map_append, tags_untagged expr,
      tagsOfAll_untaggedAll exprs]

end

/-- Equal expressions have as many tags, so the tags of what follows them stand at one place. -/
theorem tags_append_inj {expr other : Expr} (hequals : expr.equals other = true)
    {tags tags' : List Tag} (htags : expr.tags ++ tags = other.tags ++ tags') :
    expr.tags = other.tags ∧ tags = tags' := by
  have hcontent := ((equals_iff expr other).1 hequals).1
  have hlength := congrArg (·.tags.length) hcontent
  simp only [tags_content, List.length_map] at hlength
  exact List.append_inj htags hlength

mutual

theorem identical_iff : (expr other : Expr) →
    (expr.identical other = true ↔ expr.equals other = true ∧ expr.tags = other.tags)
  | .int .., other | .float .., other | .bool .., other | .var .., other => by
    cases other <;> simp [identical, equals, tags]
  | .unary operator operand _, other => by
    have hoperand := identical_iff operand
    cases other <;> simp [identical, equals, tags, hoperand]
    grind
  | .binary operator lhs rhs _, other => by
    have hlhs := identical_iff lhs
    have hrhs := identical_iff rhs
    cases other <;> simp [identical, equals, tags, hlhs, hrhs]
    grind [tags_append_inj]
  | .call callee args _, other => by
    have hargs := identicalAll_iff args
    cases other <;> simp [identical, equals, tags, hargs]
    grind

theorem identicalAll_iff : (exprs others : List Expr) →
    (identicalAll exprs others = true ↔
      equalsAll exprs others = true ∧ tagsOfAll exprs = tagsOfAll others)
  | [], others => by
    cases others <;> simp [identicalAll, equalsAll]
  | expr :: exprs, others => by
    have hexpr := identical_iff expr
    have hexprs := identicalAll_iff exprs
    cases others <;> simp [identicalAll, equalsAll, tagsOfAll, hexpr, hexprs]
    grind [tags_append_inj]

end

end Expr

/-! ## Statements -/

namespace Stmt

mutual

/-- The statement as it is compared. -/
def content : Stmt → Stmt
  | .letVar name type => .letVar name type
  | .assign target value => .assign target value.content
  | .ifElse condition thenBranch elseBranch =>
    .ifElse condition.content thenBranch.content elseBranch.content
  | .ret value => .ret value.content
  | .block stmts => .block (contentOfAll stmts)

/-- Several statements as they are compared. -/
def contentOfAll : List Stmt → List Stmt
  | [] => []
  | stmt :: stmts => stmt.content :: contentOfAll stmts

end

mutual

theorem equals_iff : (stmt other : Stmt) →
    (stmt.equals other = true ↔ stmt.content = other.content ∧ Expr.NaNFree stmt.nodes)
  | .letVar .., other => by
    cases other <;> simp [equals, content, nodes]
  | .assign _ value, other | .ret value, other => by
    have hvalue := value.equals_iff
    cases other <;> simp [equals, content, nodes, hvalue, and_assoc]
  | .ifElse condition thenBranch elseBranch, other => by
    have hcondition := condition.equals_iff
    have hthen := equals_iff thenBranch
    have helse := equals_iff elseBranch
    cases other <;> simp [equals, content, nodes, hcondition, hthen, helse]
    grind
  | .block stmts, other => by
    have hstmts := equalsAll_iff stmts
    cases other <;> simp [equals, content, nodes, hstmts]

theorem equalsAll_iff : (stmts others : List Stmt) →
    (equalsAll stmts others = true ↔
      contentOfAll stmts = contentOfAll others ∧ Expr.NaNFree (nodesOfAll stmts))
  | [], others => by
    cases others <;> simp [equalsAll, contentOfAll, nodesOfAll]
  | stmt :: stmts, others => by
    have hstmt := equals_iff stmt
    have hstmts := equalsAll_iff stmts
    cases others <;> simp [equalsAll, contentOfAll, nodesOfAll, hstmt, hstmts]
    grind

end

mutual

theorem content_untagged : (stmt : Stmt) → stmt.untagged.content = stmt.content
  | .letVar .. => rfl
  | .assign _ value | .ret value => by
    simp only [untagged, content, value.content_untagged]
  | .ifElse condition thenBranch elseBranch => by
    simp only [untagged, content, condition.content_untagged, content_untagged thenBranch,
      content_untagged elseBranch]
  | .block stmts => by
    simp only [untagged, content, contentOfAll_untaggedAll stmts]

theorem contentOfAll_untaggedAll : (stmts : List Stmt) →
    contentOfAll (untaggedAll stmts) = contentOfAll stmts
  | [] => rfl
  | stmt :: stmts => by
    simp only [untaggedAll, contentOfAll, content_untagged stmt, contentOfAll_untaggedAll stmts]

end

mutual

theorem nanFree_content : (stmt : Stmt) →
    (Expr.NaNFree stmt.content.nodes ↔ Expr.NaNFree stmt.nodes)
  | .letVar .. => Iff.rfl
  | .assign _ value | .ret value => value.nanFree_content
  | .ifElse condition thenBranch elseBranch => by
    simp [content, nodes, condition.nanFree_content, nanFree_content thenBranch,
      nanFree_content elseBranch]
  | .block stmts => nanFree_contentOfAll stmts

theorem nanFree_contentOfAll : (stmts : List Stmt) →
    (Expr.NaNFree (nodesOfAll (contentOfAll stmts)) ↔ Expr.NaNFree (nodesOfAll stmts))
  | [] => Iff.rfl
  | stmt :: stmts => by
    simp [contentOfAll, nodesOfAll, nanFree_content stmt, nanFree_contentOfAll stmts]

end

mutual

theorem content_of_canonical : (stmt : Stmt) → stmt.isCanonical = true →
    stmt.content = stmt.untagged
  | .letVar .., _ => rfl
  | .assign _ value, hcanonical => by
    simp only [isCanonical, Bool.and_eq_true] at hcanonical
    simp only [content, untagged, value.content_of_canonical hcanonical.2]
  | .ifElse condition thenBranch elseBranch, hcanonical => by
    simp only [isCanonical, Bool.and_eq_true] at hcanonical
    obtain ⟨⟨hcondition, -, hthen⟩, -, helse⟩ := hcanonical
    simp only [content, untagged, condition.content_of_canonical hcondition,
      content_of_canonical thenBranch hthen, content_of_canonical elseBranch helse]
  | .ret value, hcanonical => by
    simp only [isCanonical] at hcanonical
    simp only [content, untagged, value.content_of_canonical hcanonical]
  | .block stmts, hcanonical => by
    simp only [isCanonical] at hcanonical
    simp only [content, untagged, contentOfAll_of_canonical stmts hcanonical]

theorem contentOfAll_of_canonical : (stmts : List Stmt) → areCanonical stmts = true →
    contentOfAll stmts = untaggedAll stmts
  | [], _ => rfl
  | stmt :: stmts, hcanonical => by
    simp only [areCanonical, Bool.and_eq_true] at hcanonical
    simp only [contentOfAll, untaggedAll, content_of_canonical stmt hcanonical.1,
      contentOfAll_of_canonical stmts hcanonical.2]

end

/-! ### Tags -/

mutual

theorem tags_content : (stmt : Stmt) → stmt.content.tags = stmt.tags.map fun _ => none
  | .letVar .. => rfl
  | .assign _ value | .ret value => value.tags_content
  | .ifElse condition thenBranch elseBranch => by
    simp only [content, tags, List.map_append, condition.tags_content, tags_content thenBranch,
      tags_content elseBranch]
  | .block stmts => tagsOfAll_contentOfAll stmts

theorem tagsOfAll_contentOfAll : (stmts : List Stmt) →
    tagsOfAll (contentOfAll stmts) = (tagsOfAll stmts).map fun _ => none
  | [] => rfl
  | stmt :: stmts => by
    simp only [contentOfAll, tagsOfAll, List.map_append, tags_content stmt,
      tagsOfAll_contentOfAll stmts]

end

mutual

theorem tags_untagged : (stmt : Stmt) → stmt.untagged.tags = stmt.tags.map fun _ => none
  | .letVar .. => rfl
  | .assign _ value | .ret value => value.tags_untagged
  | .ifElse condition thenBranch elseBranch => by
    simp only [untagged, tags, List.map_append, condition.tags_untagged, tags_untagged thenBranch,
      tags_untagged elseBranch]
  | .block stmts => tagsOfAll_untaggedAll stmts

theorem tagsOfAll_untaggedAll : (stmts : List Stmt) →
    tagsOfAll (untaggedAll stmts) = (tagsOfAll stmts).map fun _ => none
  | [] => rfl
  | stmt :: stmts => by
    simp only [untaggedAll, tagsOfAll, List.map_append, tags_untagged stmt,
      tagsOfAll_untaggedAll stmts]

end

theorem tags_append_inj {stmt other : Stmt} (hequals : stmt.equals other = true)
    {tags tags' : List Tag} (htags : stmt.tags ++ tags = other.tags ++ tags') :
    stmt.tags = other.tags ∧ tags = tags' := by
  have hcontent := ((equals_iff stmt other).1 hequals).1
  have hlength := congrArg (·.tags.length) hcontent
  simp only [tags_content, List.length_map] at hlength
  exact List.append_inj htags hlength

mutual

theorem identical_iff : (stmt other : Stmt) →
    (stmt.identical other = true ↔ stmt.equals other = true ∧ stmt.tags = other.tags)
  | .letVar .., other => by
    cases other <;> simp [identical, equals, tags]
  | .assign _ value, other | .ret value, other => by
    have hvalue := value.identical_iff
    cases other <;> simp [identical, equals, tags, hvalue, and_assoc]
  | .ifElse condition thenBranch elseBranch, other => by
    have hcondition := condition.identical_iff
    have hthen := identical_iff thenBranch
    have helse := identical_iff elseBranch
    cases other <;> simp [identical, equals, tags, hcondition, hthen, helse]
    grind [tags_append_inj, Expr.tags_append_inj]
  | .block stmts, other => by
    have hstmts := identicalAll_iff stmts
    cases other <;> simp [identical, equals, tags, hstmts]

theorem identicalAll_iff : (stmts others : List Stmt) →
    (identicalAll stmts others = true ↔
      equalsAll stmts others = true ∧ tagsOfAll stmts = tagsOfAll others)
  | [], others => by
    cases others <;> simp [identicalAll, equalsAll]
  | stmt :: stmts, others => by
    have hstmt := identical_iff stmt
    have hstmts := identicalAll_iff stmts
    cases others <;> simp [identicalAll, equalsAll, tagsOfAll, hstmt, hstmts]
    grind [tags_append_inj]

end

end Stmt

/-! ## Declarations -/

namespace Decl

/-- The declaration as it is compared. -/
def content (decl : Decl) : Decl :=
  ⟨decl.proto, decl.body.map Stmt.content⟩

/-- All expressions in the declaration. -/
def nodes (decl : Decl) : List Expr :=
  (decl.body.map Stmt.nodes).getD []

theorem equals_iff (decl other : Decl) :
    decl.equals other = true ↔ decl.content = other.content ∧ Expr.NaNFree decl.nodes := by
  obtain ⟨proto, _ | body⟩ := decl <;> obtain ⟨proto', _ | body'⟩ := other <;>
    simp [equals, sameBody, content, nodes, Stmt.equals_iff, and_assoc]

theorem content_untagged (decl : Decl) : decl.untagged.content = decl.content := by
  obtain ⟨proto, _ | body⟩ := decl
  · rfl
  · simp only [untagged, content, Option.map_some, body.content_untagged]

theorem nanFree_content (decl : Decl) :
    Expr.NaNFree decl.content.nodes ↔ Expr.NaNFree decl.nodes := by
  obtain ⟨proto, _ | body⟩ := decl
  · exact Iff.rfl
  · exact body.nanFree_content

theorem content_of_canonical {decl : Decl} (hcanonical : decl.isCanonical = true) :
    decl.content = decl.untagged := by
  obtain ⟨proto, _ | body⟩ := decl
  · rfl
  · simp only [isCanonical, Option.all_some, Bool.and_eq_true] at hcanonical
    simp only [content, untagged, Option.map_some, body.content_of_canonical hcanonical.2.2]

theorem tags_content (decl : Decl) : decl.content.allTags = decl.allTags.map fun _ => none := by
  obtain ⟨proto, _ | body⟩ := decl
  · rfl
  · exact body.tags_content

theorem tags_untagged (decl : Decl) :
    decl.untagged.allTags = decl.allTags.map fun _ => none := by
  obtain ⟨proto, _ | body⟩ := decl
  · rfl
  · exact body.tags_untagged

theorem tags_append_inj {decl other : Decl} (hequals : decl.equals other = true)
    {tags tags' : List Tag} (htags : decl.allTags ++ tags = other.allTags ++ tags') :
    decl.allTags = other.allTags ∧ tags = tags' := by
  have hcontent := ((equals_iff decl other).1 hequals).1
  have hlength := congrArg (·.allTags.length) hcontent
  simp only [tags_content, List.length_map] at hlength
  exact List.append_inj htags hlength

theorem identical_iff (decl other : Decl) :
    decl.identical other = true ↔ decl.equals other = true ∧ decl.allTags = other.allTags := by
  obtain ⟨proto, _ | body⟩ := decl <;> obtain ⟨proto', _ | body'⟩ := other <;>
    simp [identical, equals, sameBody, allTags, tags, Stmt.identical_iff, and_assoc]

end Decl

/-! ## Modules -/

namespace Module

/-- The module as it is compared. -/
def content (module : Module) : Module :=
  ⟨module.name, module.decls.map Decl.content⟩

/-- All expressions in the module. -/
def nodes (module : Module) : List Expr :=
  module.decls.flatMap Decl.nodes

theorem sameDecls_equals_iff (decls others : List Decl) :
    sameDecls Decl.equals decls others = true ↔
      decls.map Decl.content = others.map Decl.content ∧
        Expr.NaNFree (decls.flatMap Decl.nodes) := by
  induction decls generalizing others with
  | nil => cases others <;> simp [sameDecls]
  | cons decl decls ih =>
    cases others <;> simp [sameDecls, ih, Decl.equals_iff]
    grind

theorem equals_iff (module other : Module) :
    module.equals other = true ↔
      module.content = other.content ∧ Expr.NaNFree module.nodes := by
  simp [equals, content, nodes, sameDecls_equals_iff, and_assoc]

theorem content_untagged (module : Module) : module.untagged.content = module.content := by
  have hdecls : Decl.content ∘ Decl.untagged = Decl.content := funext Decl.content_untagged
  simp only [untagged, content, List.map_map, hdecls]

theorem nanFree_content (module : Module) :
    Expr.NaNFree module.content.nodes ↔ Expr.NaNFree module.nodes := by
  obtain ⟨name, decls⟩ := module
  induction decls with
  | nil => exact Iff.rfl
  | cons decl decls ih =>
    simp only [content, nodes, List.map_cons, List.flatMap_cons, Expr.nanFree_append,
      decl.nanFree_content] at ih ⊢
    rw [ih]

theorem content_of_canonical {module : Module} (hcanonical : module.isCanonical = true) :
    module.content = module.untagged := by
  have hdecls : module.decls.map Decl.content = module.decls.map Decl.untagged :=
    List.map_congr_left fun decl hdecl =>
      Decl.content_of_canonical (List.all_eq_true.1 hcanonical decl hdecl)
  simp only [content, untagged, hdecls]

theorem sameDecls_identical_iff (decls others : List Decl) :
    sameDecls Decl.identical decls others = true ↔
      sameDecls Decl.equals decls others = true ∧
        decls.flatMap Decl.allTags = others.flatMap Decl.allTags := by
  induction decls generalizing others with
  | nil => cases others <;> simp [sameDecls]
  | cons decl decls ih =>
    cases others <;> simp [sameDecls, ih, Decl.identical_iff]
    grind [Decl.tags_append_inj]

theorem identical_iff (module other : Module) :
    module.identical other = true ↔ module.equals other = true ∧
      module.decls.flatMap Decl.allTags = other.decls.flatMap Decl.allTags := by
  simp [identical, equals, sameDecls_identical_iff, and_assoc]

end Module

/-! ## Trees of all kinds -/

namespace Tree

/-- Whether two trees are of one kind and the same but for their tags. -/
def equals : Tree → Tree → Bool
  | .ofExpr expr, .ofExpr other => expr.equals other
  | .ofStmt stmt, .ofStmt other => stmt.equals other
  | .ofDecl decl, .ofDecl other => decl.equals other
  | .ofModule module, .ofModule other => module.equals other
  | _, _ => false

/-- Whether two trees are of one kind, the same, and have the same tags. -/
def identical : Tree → Tree → Bool
  | .ofExpr expr, .ofExpr other => expr.identical other
  | .ofStmt stmt, .ofStmt other => stmt.identical other
  | .ofDecl decl, .ofDecl other => decl.identical other
  | .ofModule module, .ofModule other => module.identical other
  | _, _ => false

/-- The tree as it is compared. -/
def content : Tree → Tree
  | .ofExpr expr => .ofExpr expr.content
  | .ofStmt stmt => .ofStmt stmt.content
  | .ofDecl decl => .ofDecl decl.content
  | .ofModule module => .ofModule module.content

/-- All expressions in the tree. -/
def nodes : Tree → List Expr
  | .ofExpr expr => expr.nodes
  | .ofStmt stmt => stmt.nodes
  | .ofDecl decl => decl.nodes
  | .ofModule module => module.nodes

theorem equals_iff (tree other : Tree) :
    tree.equals other = true ↔ tree.content = other.content ∧ Expr.NaNFree tree.nodes := by
  cases tree <;> cases other <;>
    simp [equals, content, nodes, Expr.equals_iff, Stmt.equals_iff, Decl.equals_iff,
      Module.equals_iff]

theorem identical_iff (tree other : Tree) :
    tree.identical other = true ↔ tree.equals other = true ∧ tree.tags = other.tags := by
  cases tree <;> cases other <;>
    simp [identical, equals, tags, Expr.identical_iff, Stmt.identical_iff, Decl.identical_iff,
      Module.identical_iff]

theorem content_untagged (tree : Tree) : tree.untagged.content = tree.content := by
  cases tree with
  | ofExpr expr => exact congrArg ofExpr expr.content_untagged
  | ofStmt stmt => exact congrArg ofStmt stmt.content_untagged
  | ofDecl decl => exact congrArg ofDecl decl.content_untagged
  | ofModule module => exact congrArg ofModule module.content_untagged

theorem nanFree_content (tree : Tree) :
    Expr.NaNFree tree.content.nodes ↔ Expr.NaNFree tree.nodes := by
  cases tree with
  | ofExpr expr => exact expr.nanFree_content
  | ofStmt stmt => exact stmt.nanFree_content
  | ofDecl decl => exact decl.nanFree_content
  | ofModule module => exact module.nanFree_content

theorem tags_content (tree : Tree) : tree.content.tags = tree.tags.map fun _ => none := by
  cases tree with
  | ofExpr expr => exact expr.tags_content
  | ofStmt stmt => exact stmt.tags_content
  | ofDecl decl => exact decl.tags_content
  | ofModule module =>
    simp only [content, tags, Module.content, List.flatMap_map, List.map_flatMap,
      Decl.tags_content]

theorem tags_untagged (tree : Tree) : tree.untagged.tags = tree.tags.map fun _ => none := by
  cases tree with
  | ofExpr expr => exact expr.tags_untagged
  | ofStmt stmt => exact stmt.tags_untagged
  | ofDecl decl => exact decl.tags_untagged
  | ofModule module =>
    simp only [untagged, tags, Module.untagged, List.flatMap_map, List.map_flatMap,
      Decl.tags_untagged]

theorem nanFree_iff_of_content {tree other : Tree} (hcontent : tree.content = other.content) :
    Expr.NaNFree tree.nodes ↔ Expr.NaNFree other.nodes := by
  rw [← tree.nanFree_content, hcontent, other.nanFree_content]

/-- Two trees with the same content are compared with others alike. -/
theorem equals_congr {tree tree' other other' : Tree} (htree : tree.content = tree'.content)
    (hother : other.content = other'.content) : tree.equals other = tree'.equals other' := by
  rw [Bool.eq_iff_iff, equals_iff, equals_iff, htree, hother, nanFree_iff_of_content htree]

theorem equals_symm {tree other : Tree} (hequals : tree.equals other = true) :
    other.equals tree = true := by
  obtain ⟨hcontent, hnan⟩ := (equals_iff tree other).1 hequals
  exact (equals_iff other tree).2 ⟨hcontent.symm, (nanFree_iff_of_content hcontent).1 hnan⟩

/-- Equal trees are identical once they have no tags. -/
theorem equals_eq_identical_untagged (tree other : Tree) :
    tree.equals other = tree.untagged.identical other.untagged := by
  have huntagged : tree.untagged.equals other.untagged = tree.equals other :=
    equals_congr tree.content_untagged other.content_untagged
  rw [Bool.eq_iff_iff, identical_iff, huntagged]
  constructor
  · intro hequals
    have hcontent := ((equals_iff tree other).1 hequals).1
    exact ⟨hequals, by rw [tags_untagged, ← tags_content, hcontent, tags_content, tags_untagged]⟩
  · exact And.left

/-- The comparison that ignores tags does ignore them, and they are all that it ignores.  It is
symmetric, transitive, and reflexive exactly where there is no NaN. -/
theorem comparison_laws (tree other third : Tree) :
    tree.equals other = tree.untagged.identical other.untagged ∧
    (tree.identical other = true ↔ tree.equals other = true ∧ tree.tags = other.tags) ∧
    (∀ tree' other' : Tree, tree'.untagged = tree.untagged → other'.untagged = other.untagged →
      tree'.equals other' = tree.equals other) ∧
    tree.equals other = other.equals tree ∧
    (tree.equals other = true → other.equals third = true → tree.equals third = true) ∧
    (tree.equals tree = true ↔ ∀ tag, .float .nan tag ∉ tree.nodes) := by
  refine ⟨equals_eq_identical_untagged tree other, identical_iff tree other, ?_, ?_, ?_, ?_⟩
  · intro tree' other' htree hother
    rw [equals_eq_identical_untagged, htree, hother, ← equals_eq_identical_untagged]
  · rw [Bool.eq_iff_iff]
    exact ⟨equals_symm, equals_symm⟩
  · intro hfirst hsecond
    obtain ⟨hcontent, hnan⟩ := (equals_iff tree other).1 hfirst
    obtain ⟨hcontent', -⟩ := (equals_iff other third).1 hsecond
    exact (equals_iff tree third).2 ⟨hcontent.trans hcontent', hnan⟩
  · rw [equals_iff, eq_self, true_and]
    exact Iff.rfl

/-- A function that returns a number, which has the given tag. -/
def returning (number : Binary64) (tag : Tag) : Tree :=
  .ofDecl ⟨⟨"f", [], "float"⟩, some (.block [.ret (.float number tag)])⟩

/-- The two zeros are equal whatever their tags are, but with other tags they are not
identical.  A NaN is not equal to itself. -/
theorem comparison_laws_of_zeros :
    let zero := returning (.finite false ⟨0, by decide⟩)
    let negativeZero := returning (.finite true ⟨0, by decide⟩)
    (zero (some "float")).equals (zero none) = true ∧
    (zero (some "float")).identical (negativeZero none) = false ∧
    (returning .nan none).equals (returning .nan none) = false := by
  intro zero negativeZero
  have hzero : (zero none).equals (negativeZero none) = true := rfl
  obtain ⟨-, hidentical, htags, -, htrans, -⟩ :=
    comparison_laws (zero (some "float")) (negativeZero none) (zero none)
  obtain ⟨-, -, -, hsymm, -⟩ := comparison_laws (zero none) (negativeZero none) (zero none)
  have htagged : (zero (some "float")).equals (negativeZero none) = true :=
    (htags (zero none) (negativeZero none) rfl rfl).symm.trans hzero
  refine ⟨?_, ?_, ?_⟩
  · exact htrans htagged (hsymm.symm.trans hzero)
  · rw [Bool.eq_false_iff]
    intro hidentity
    exact absurd (hidentical.1 hidentity).2 (by decide)
  · rw [Bool.eq_false_iff]
    intro hequals
    obtain ⟨-, -, -, -, -, hrefl⟩ :=
      comparison_laws (returning .nan none) (returning .nan none) (returning .nan none)
    exact hrefl.1 hequals none (List.mem_singleton.2 rfl)

end Tree

end Frontend
