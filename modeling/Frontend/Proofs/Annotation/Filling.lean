import Frontend.Proofs.Annotation.Module
import Mathlib.Data.List.Forall2

/-!
# Tags are filled and never changed

An annotation can be tried on a tree that has tags already, with another annotator than the one
that gave them.  Whatever it comes to, it leaves the tree as it was but for empty tags, some of
which it fills.

* Tags that stay.  `Tag.Stays` says that a tag which was set keeps its type.  It is compared tag by
  tag, in the order of the tree (`TagsStay`).
* One annotation.  `tagsStay_annotate` for each kind of tree.  For expressions there is more to
  say about the root: after a success its tag is the answer, and after a failure it is as it
  was.
* Any number of them.  `Tree` is whatever can be annotated, and `annotation_only_fills_tags` is the
  result for every sequence of annotations.
-/

namespace Frontend

/-! ## Tags that stay -/

/-- A tag that was set keeps its type.  An empty one may be filled. -/
def Tag.Stays (tag later : Tag) : Prop :=
  ∀ type, tag = some type → later = some type

theorem Tag.Stays.refl (tag : Tag) : tag.Stays tag :=
  fun _ hset => hset

theorem Tag.Stays.of_empty (later : Tag) : Tag.Stays none later :=
  nofun

theorem Tag.stays_fill (tag : Tag) (type : TypeName) : tag.Stays (tag.fill type) := by
  intro recorded hset
  rw [hset]
  rfl

/-- The tags of a tree and of the same tree later on, one by one. -/
abbrev TagsStay (tags later : List Tag) : Prop :=
  List.Forall₂ Tag.Stays tags later

theorem tagsStay_refl (tags : List Tag) : TagsStay tags tags :=
  List.forall₂_same.2 fun tag _ => .refl tag

theorem TagsStay.trans {tags later latest : List Tag} (hfirst : TagsStay tags later)
    (hsecond : TagsStay later latest) : TagsStay tags latest := by
  induction hfirst generalizing latest with
  | nil => exact hsecond
  | cons htag _ ih =>
    cases hsecond with
    | cons htag' htags' => exact .cons (fun type hset => htag' type (htag type hset)) (ih htags')

theorem TagsStay.append {tags tags' later later' : List Tag} (hfirst : TagsStay tags later)
    (hsecond : TagsStay tags' later') : TagsStay (tags ++ tags') (later ++ later') :=
  List.rel_append hfirst hsecond

/-! ## Expressions -/

namespace Expr

variable {annotator : Annotator}

mutual

theorem tagsStay_annotate : (expr : Expr) → TagsStay expr.tags (expr.annotate annotator).node.tags
  | .int _ tag => .cons (tag.stays_fill intType) .nil
  | .float _ tag => .cons (tag.stays_fill floatType) .nil
  | .bool _ tag => .cons (tag.stays_fill boolType) .nil
  | .var name tag => by
    rw [annotate]
    cases annotator.variableType name with
    | ok type => exact .cons (tag.stays_fill type) .nil
    | error error => exact tagsStay_refl _
  | .unary _ _ (some _) | .binary _ _ _ (some _) | .call _ _ (some _) => tagsStay_refl _
  | .unary operator operand none => .cons (.of_empty _) (tagsStay_annotate operand)
  | .binary operator lhs rhs none => by
    have hlhs := tagsStay_annotate lhs
    rw [annotate]
    cases (lhs.annotate annotator).result with
    | error error => exact .cons (.of_empty _) (hlhs.append (tagsStay_refl _))
    | ok type => exact .cons (.of_empty _) (hlhs.append (tagsStay_annotate rhs))
  | .call callee args none => .cons (.of_empty _) (tagsStay_annotateAll args)

/-- The expressions after the first that fails are not touched. -/
theorem tagsStay_annotateAll : (exprs : List Expr) →
    TagsStay (tagsOfAll exprs) (tagsOfAll (annotateAll annotator exprs).node)
  | [] => .nil
  | expr :: exprs => by
    have hexpr := tagsStay_annotate expr
    rw [annotateAll]
    cases (expr.annotate annotator).result with
    | error error => exact hexpr.append (tagsStay_refl _)
    | ok type => exact hexpr.append (tagsStay_annotateAll exprs)

end

/-- The answer is the tag of the root, be it a new one or one that was there before. -/
theorem tag_of_annotate_ok (expr : Expr) {type : TypeName}
    (hresult : (expr.annotate annotator).result = .ok type) :
    (expr.annotate annotator).node.tag = some type := by
  cases expr with
  | int value tag | float value tag | bool value tag =>
    cases hresult
    rfl
  | var name tag =>
    rw [annotate] at hresult ⊢
    cases hvar : annotator.variableType name with
    | error error =>
      rw [hvar] at hresult
      cases hresult
    | ok found =>
      rw [hvar] at hresult
      cases hresult
      rfl
  | unary operator operand tag =>
    cases tag with
    | none =>
      rw [annotate_unary_node hresult]
      rfl
    | some recorded =>
      cases hresult
      rfl
  | binary operator lhs rhs tag =>
    cases tag with
    | none =>
      rw [annotate_binary_node hresult]
      rfl
    | some recorded =>
      cases hresult
      rfl
  | call callee args tag =>
    cases tag with
    | none =>
      rw [annotate_call_node hresult]
      rfl
    | some recorded =>
      cases hresult
      rfl

/-- A failure is one of a variable, whose tag is not looked at, or of a node without a tag. -/
theorem tag_of_annotate_error (expr : Expr) {error : Error}
    (hresult : (expr.annotate annotator).result = .error error) :
    (expr.annotate annotator).node.tag = expr.tag := by
  cases expr with
  | int value tag | float value tag | bool value tag => cases hresult
  | var name tag =>
    rw [annotate] at hresult ⊢
    cases hvar : annotator.variableType name with
    | error found => rfl
    | ok type =>
      rw [hvar] at hresult
      cases hresult
  | unary operator operand tag =>
    cases tag with
    | none =>
      rw [annotate_unary_node_of_error hresult]
      rfl
    | some recorded => rfl
  | binary operator lhs rhs tag =>
    cases tag with
    | none =>
      rw [annotate] at hresult ⊢
      cases hlhs : (lhs.annotate annotator).result with
      | error found => rfl
      | ok lhsType =>
        simp only [hlhs] at hresult ⊢
        show Except.toOption _ = none
        rw [hresult]
        rfl
    | some recorded => rfl
  | call callee args tag =>
    cases tag with
    | none =>
      rw [annotate_call_node_of_error hresult]
      rfl
    | some recorded => rfl

/-- A variable that was an `int` when it got its tag remains one where it is declared a `float`. -/
example : ((var "x" (some intType)).annotate (Annotator.initial.declare "x" floatType)).result =
    .ok intType :=
  rfl

end Expr

/-! ## Statements, declarations and modules -/

namespace Stmt

mutual

theorem tagsStay_annotate : (stmt : Stmt) → (annotator : Annotator) →
    TagsStay stmt.tags (stmt.annotate annotator).node.tags
  | .letVar .., _ => .nil
  | .assign _ value, _ | .ret value, _ => value.tagsStay_annotate
  | .ifElse condition thenBranch elseBranch, annotator => by
    have hcondition : TagsStay condition.tags (condition.annotate annotator).node.tags :=
      condition.tagsStay_annotate
    have hthen := tagsStay_annotate thenBranch annotator
    rw [annotate]
    dsimp only
    split
    · exact (hcondition.append (tagsStay_refl _)).append (tagsStay_refl _)
    · split
      · exact (hcondition.append hthen).append (tagsStay_refl _)
      · exact (hcondition.append hthen).append (tagsStay_annotate elseBranch _)
  | .block stmts, annotator => tagsStay_annotateAll stmts annotator

theorem tagsStay_annotateAll : (stmts : List Stmt) → (annotator : Annotator) →
    TagsStay (tagsOfAll stmts) (tagsOfAll (annotateAll annotator stmts).node)
  | [], _ => .nil
  | stmt :: stmts, annotator => by
    have hstmt := tagsStay_annotate stmt annotator
    rw [annotateAll, Pass.cons]
    split
    · exact hstmt.append (tagsStay_refl _)
    · exact hstmt.append (tagsStay_annotateAll stmts _)

end

end Stmt

namespace Decl

/-- The tags of the declaration, none if it has no body. -/
def allTags (decl : Decl) : List Tag :=
  decl.tags.getD []

theorem tagsStay_annotate (decl : Decl) (annotator : Annotator) :
    TagsStay decl.allTags (decl.annotate annotator).node.allTags := by
  rcases decl.annotate_outcomes annotator with ⟨events, error, -, hannotate⟩ |
    ⟨known, events, -, hannotate⟩ <;> rw [hannotate]
  · exact tagsStay_refl _
  · obtain ⟨proto, _ | body⟩ := decl
    · exact tagsStay_refl _
    · exact body.tagsStay_annotate (within known proto)

theorem tagsStay_annotateAll (decls : List Decl) (annotator : Annotator) :
    TagsStay (decls.flatMap allTags) ((annotateAll annotator decls).node.flatMap allTags) := by
  induction decls generalizing annotator with
  | nil => exact .nil
  | cons decl decls ih =>
    have htags := decl.tagsStay_annotate annotator
    cases hdecl : (decl.annotate annotator).result with
    | error error =>
      rw [annotateAll_cons_of_error decls hdecl]
      exact htags.append (tagsStay_refl _)
    | ok done =>
      rw [annotateAll_cons_of_ok decls hdecl]
      exact htags.append (ih _)

end Decl

/-! ## Any number of annotations -/

/-- Whatever can be annotated. -/
inductive Tree where
  | ofExpr (expr : Expr)
  | ofStmt (stmt : Stmt)
  | ofDecl (decl : Decl)
  | ofModule (module : Module)

namespace Tree

/-- The tree and the annotator after an annotation, also if that failed.  For an expression the
annotator is the one that was given: variables and overloads are only looked up in it, and
`Expr.annotate` answers no other. -/
def annotate (annotator : Annotator) : Tree → Tree × Annotator
  | .ofExpr expr => (.ofExpr (expr.annotate annotator).node, annotator)
  | .ofStmt stmt => (.ofStmt (stmt.annotate annotator).node, (stmt.annotate annotator).annotator)
  | .ofDecl decl => (.ofDecl (decl.annotate annotator).node, (decl.annotate annotator).annotator)
  | .ofModule module =>
    (.ofModule (module.annotate annotator).node, (module.annotate annotator).annotator)

/-- The tree after several annotations, each with an annotator of its own. -/
def annotateEach (tree : Tree) (annotators : List Annotator) : Tree :=
  annotators.foldl (fun tree annotator => (tree.annotate annotator).1) tree

/-- The tree with all tags empty. -/
def untagged : Tree → Tree
  | .ofExpr expr => .ofExpr expr.untagged
  | .ofStmt stmt => .ofStmt stmt.untagged
  | .ofDecl decl => .ofDecl decl.untagged
  | .ofModule module => .ofModule module.untagged

/-- The tags of all expressions, in the order of the text. -/
def tags : Tree → List Tag
  | .ofExpr expr => expr.tags
  | .ofStmt stmt => stmt.tags
  | .ofDecl decl => decl.allTags
  | .ofModule module => module.decls.flatMap Decl.allTags

theorem untagged_annotate (tree : Tree) (annotator : Annotator) :
    (tree.annotate annotator).1.untagged = tree.untagged := by
  cases tree with
  | ofExpr expr => exact congrArg Tree.ofExpr expr.untagged_annotate
  | ofStmt stmt => exact congrArg Tree.ofStmt (stmt.untagged_annotate annotator)
  | ofDecl decl => exact congrArg Tree.ofDecl (decl.untagged_annotate annotator)
  | ofModule module =>
    exact congrArg (fun decls => Tree.ofModule ⟨module.name, decls⟩)
      (Decl.untagged_annotateAll module.decls annotator)

theorem tagsStay_annotate (tree : Tree) (annotator : Annotator) :
    TagsStay tree.tags (tree.annotate annotator).1.tags := by
  cases tree with
  | ofExpr expr => exact expr.tagsStay_annotate
  | ofStmt stmt => exact stmt.tagsStay_annotate annotator
  | ofDecl decl => exact decl.tagsStay_annotate annotator
  | ofModule module => exact Decl.tagsStay_annotateAll module.decls annotator

/-- What one annotation keeps is kept by all of them. -/
theorem keeps_annotateEach (tree : Tree) (annotators : List Annotator) :
    (tree.annotateEach annotators).untagged = tree.untagged ∧
      TagsStay tree.tags (tree.annotateEach annotators).tags := by
  induction annotators generalizing tree with
  | nil => exact ⟨rfl, tagsStay_refl _⟩
  | cons annotator annotators ih =>
    obtain ⟨huntagged, htags⟩ := ih (tree.annotate annotator).1
    exact ⟨huntagged.trans (tree.untagged_annotate annotator),
      (tree.tagsStay_annotate annotator).trans htags⟩

/-- However often a tree is annotated, by whatever annotators and with whatever results, it stays
the same but for its tags, and no tag that is set changes.  The annotation of an expression
leaves the annotator as it is; if it succeeds it answers the tag of the root, and if it fails the
tag of the root is as before.  That of a statement leaves all but the scope. -/
theorem annotation_only_fills_tags (tree : Tree) (annotators : List Annotator) :
    (tree.annotateEach annotators).untagged = tree.untagged ∧
    TagsStay tree.tags (tree.annotateEach annotators).tags ∧
    ∀ annotator : Annotator,
      (∀ expr : Expr, ((Tree.ofExpr expr).annotate annotator).2 = annotator ∧
        (∀ type, (expr.annotate annotator).result = .ok type →
          (expr.annotate annotator).node.tag = some type) ∧
        ∀ error, (expr.annotate annotator).result = .error error →
          (expr.annotate annotator).node.tag = expr.tag) ∧
      ∀ stmt : Stmt, ∃ scope, ((Tree.ofStmt stmt).annotate annotator).2 =
        { annotator with scope := scope } := by
  obtain ⟨huntagged, htags⟩ := tree.keeps_annotateEach annotators
  refine ⟨huntagged, htags, fun annotator => ⟨fun expr => ⟨rfl, ?_, ?_⟩, fun stmt => ?_⟩⟩
  · exact fun type => expr.tag_of_annotate_ok
  · exact fun error => expr.tag_of_annotate_error
  · obtain ⟨hoverloads, hfunction⟩ := stmt.annotate_keeps annotator
    refine ⟨(stmt.annotate annotator).annotator.scope, ?_⟩
    rw [← hoverloads, ← hfunction]
    rfl

end Tree

end Frontend
