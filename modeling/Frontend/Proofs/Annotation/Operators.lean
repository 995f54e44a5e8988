import Frontend.Proofs.Annotation.Faults
import Frontend.Proofs.Annotation.Module

/-!
# Operators in compiled modules

The table of overloads is shared by functions and operators, and nothing in it keeps one from
adding to an operator.  A source cannot do so: what it declares has the name of an identifier, and
no operator is spelled as one.

* Tags of operators.  In an annotated module the tags around each operator are those that the type
  system gives it (`operatorTagged_of_checks`).
* Declarations.  They leave the entries of the operators alone (`lookup_operator_annotateAll`), and
  the name of an unknown function that they fail with is no operator's
  (`not_operator_of_annotateAll`).
* Compilation.  `compile_keeps_operators` puts these together.
-/

namespace Frontend

/-! ## Tags of operators -/

mutual

/-- All expressions in the statement. -/
def Stmt.nodes : Stmt → List Expr
  | .letVar .. => []
  | .assign _ value => value.nodes
  | .ifElse condition thenBranch elseBranch =>
    condition.nodes ++ (thenBranch.nodes ++ elseBranch.nodes)
  | .ret value => value.nodes
  | .block stmts => Stmt.nodesOfAll stmts

/-- All expressions in the statements. -/
def Stmt.nodesOfAll : List Stmt → List Expr
  | [] => []
  | stmt :: stmts => stmt.nodes ++ Stmt.nodesOfAll stmts

end

namespace Expr

/-- If the root is an operator, its operands and its value are tagged as the operator is typed. -/
def OperatorTagged : Expr → Prop
  | .unary operator operand tag => ∃ operandType type, operand.tag = some operandType ∧
      tag = some type ∧ OperatorType operator [operandType] type
  | .binary operator lhs rhs tag => ∃ lhsType rhsType type, lhs.tag = some lhsType ∧
      rhs.tag = some rhsType ∧ tag = some type ∧ OperatorType operator [lhsType, rhsType] type
  | _ => True

theorem mem_nodes_self (expr : Expr) : expr ∈ expr.nodes := by
  cases expr <;> simp [nodes]

section Tagged

variable {protos : List Prototype} {vars : Variables}

/-- All of the expressions are tagged with their types. -/
def AllTagged (protos : List Prototype) (vars : Variables) (exprs : List Expr) : Prop :=
  ∀ node ∈ exprs, ∃ type, TaggedNode protos vars node type

theorem AllTagged.tag {expr : Expr} (htagged : AllTagged protos vars expr.nodes) {type : TypeName}
    (htype : HasType protos vars expr type) : expr.tag = some type := by
  obtain ⟨other, hother⟩ := htagged expr expr.mem_nodes_self
  rw [hother.tag, hother.unique type htype]

mutual

theorem operatorTagged_of_allTagged : (expr : Expr) → AllTagged protos vars expr.nodes →
    ∀ node ∈ expr.nodes, node.OperatorTagged
  | .int .., _ | .float .., _ | .bool .., _ | .var .., _ => by
    intro node hnode
    rw [List.mem_singleton.1 hnode]
    trivial
  | .unary operator operand tag, htagged => by
    obtain ⟨⟨type, hroot⟩, hinner⟩ := List.forall_mem_cons.1 htagged
    refine List.forall_mem_cons.2 ⟨?_, operatorTagged_of_allTagged operand hinner⟩
    cases hroot.hasType with | unary hoperand hoperator =>
    exact ⟨_, type, AllTagged.tag hinner hoperand, hroot.tag, hoperator⟩
  | .binary operator lhs rhs tag, htagged => by
    obtain ⟨⟨type, hroot⟩, hinner⟩ := List.forall_mem_cons.1 htagged
    obtain ⟨hlhs, hrhs⟩ := List.forall_mem_append.1 hinner
    refine List.forall_mem_cons.2 ⟨?_, List.forall_mem_append.2
      ⟨operatorTagged_of_allTagged lhs hlhs, operatorTagged_of_allTagged rhs hrhs⟩⟩
    cases hroot.hasType with | binary hlhsType hrhsType hoperator =>
    exact ⟨_, _, type, AllTagged.tag hlhs hlhsType, AllTagged.tag hrhs hrhsType, hroot.tag,
      hoperator⟩
  | .call callee args tag, htagged => by
    obtain ⟨-, hinner⟩ := List.forall_mem_cons.1 htagged
    exact List.forall_mem_cons.2 ⟨trivial, operatorTagged_of_allTagged_args args hinner⟩

theorem operatorTagged_of_allTagged_args : (exprs : List Expr) →
    AllTagged protos vars (nodesOfAll exprs) → ∀ node ∈ nodesOfAll exprs, node.OperatorTagged
  | [], _ => nofun
  | expr :: exprs, htagged => by
    obtain ⟨hexpr, hexprs⟩ := List.forall_mem_append.1 htagged
    exact List.forall_mem_append.2
      ⟨operatorTagged_of_allTagged expr hexpr, operatorTagged_of_allTagged_args exprs hexprs⟩

end

end Tagged

theorem operatorTagged_of_taggedType {protos : List Prototype} {vars : Variables} {expr : Expr}
    {type : TypeName} (htagged : TaggedType protos vars expr type) :
    ∀ node ∈ expr.nodes, node.OperatorTagged :=
  operatorTagged_of_allTagged expr htagged.nodes

end Expr

namespace Stmt

section Checked

variable {protos : List Prototype} {returnType : TypeName}

mutual

theorem operatorTagged_of_checks : (stmt : Stmt) → {vars vars' : Variables} →
    Checks (TaggedType protos) returnType vars stmt vars' →
    ∀ node ∈ stmt.nodes, node.OperatorTagged
  | .letVar .., _, _, _ => nofun
  | .assign _ value, _, _, hchecks => by
    cases hchecks with
    | assign _ hvalue _ => exact Expr.operatorTagged_of_taggedType hvalue
    | discard hvalue => exact Expr.operatorTagged_of_taggedType hvalue
  | .ifElse condition thenBranch elseBranch, _, _, hchecks => by
    cases hchecks with | ifElse hcondition hthen helse =>
    exact List.forall_mem_append.2 ⟨Expr.operatorTagged_of_taggedType hcondition,
      List.forall_mem_append.2
        ⟨operatorTagged_of_checks thenBranch hthen, operatorTagged_of_checks elseBranch helse⟩⟩
  | .ret value, _, _, hchecks => by
    cases hchecks with | ret hvalue =>
    exact Expr.operatorTagged_of_taggedType hvalue
  | .block stmts, _, _, hchecks => by
    cases hchecks with | block hstmts =>
    exact operatorTagged_of_checksAll stmts hstmts

theorem operatorTagged_of_checksAll : (stmts : List Stmt) → {vars vars' : Variables} →
    ChecksAll (TaggedType protos) returnType vars stmts vars' →
    ∀ node ∈ nodesOfAll stmts, node.OperatorTagged
  | [], _, _, _ => nofun
  | stmt :: stmts, _, _, hchecks => by
    cases hchecks with | cons hstmt hstmts =>
    exact List.forall_mem_append.2
      ⟨operatorTagged_of_checks stmt hstmt, operatorTagged_of_checksAll stmts hstmts⟩

end

end Checked

end Stmt

/-! ## Declarations -/

namespace Decl

/-- Declarations of identifiers leave the entries of the operators as they are, also if one of them
fails. -/
theorem lookup_operator_annotateAll {decls : List Decl} (hplain : ∀ decl ∈ decls, decl.Plain)
    (annotator : Annotator) {operator : String} (hoperator : operator ∈ Operator.all) :
    (annotateAll annotator decls).annotator.overloads.lookup operator =
      annotator.overloads.lookup operator := by
  have hstep (decl : Decl) (hdecl : decl ∈ decls) (known : Annotator)
      (hknown : known.overloads.lookup operator = annotator.overloads.lookup operator) :
      (decl.annotate known).annotator.overloads.lookup operator =
        annotator.overloads.lookup operator := by
    have hname : operator ≠ decl.name := fun heq =>
      not_identifier_of_operator hoperator (heq ▸ (hplain decl hdecl).name)
    rw [← hknown]
    rcases decl.annotate_outcomes known with ⟨_, _, -, hannotate⟩ |
      ⟨opened, _, hopens, hannotate⟩ <;> rw [hannotate]
    rw [overloads_annotateReady, hopens.registered.lookup_of_ne hname]
  exact annotateAll_induction hstep rfl

/-- If declarations fail, one of them does, with what those before it have left. -/
theorem error_annotateAll {decls : List Decl} {annotator : Annotator} {error : Error}
    (hresult : (annotateAll annotator decls).result = .error error) :
    ∃ decl ∈ decls, ∃ known, annotator.overloads.Extends known.overloads ∧
      (decl.annotate known).result = .error error := by
  induction decls generalizing annotator with
  | nil => cases hresult
  | cons first decls ih =>
    cases hfirst : (first.annotate annotator).result with
    | error firstError =>
      rw [annotateAll_cons_of_error decls hfirst] at hresult
      cases hresult
      exact ⟨first, List.mem_cons_self, annotator, .refl, hfirst⟩
    | ok done =>
      rw [annotateAll_cons_of_ok decls hfirst] at hresult
      obtain ⟨decl, hdecl, known, hextends, herror⟩ := ih hresult
      exact ⟨decl, List.mem_cons_of_mem first hdecl, known,
        (first.extends_annotate annotator).trans hextends, herror⟩

/-- No declaration fails for want of an operator. -/
theorem not_operator_of_annotateAll {decls : List Decl} {function : String}
    (hresult : (annotateAll .initial decls).result = .error (.functionNotDeclared function)) :
    function ∉ Operator.all := by
  intro hoperator
  obtain ⟨decl, -, known, hextends, herror⟩ := error_annotateAll hresult
  obtain ⟨signatures, hbuiltin⟩ := Overloads.lookup_builtin_isSome_iff.2 hoperator
  rcases fault_annotate herror with hrefuses | hfault
  · cases hrefuses with
    | params hparams =>
      obtain ⟨_, _, _, -, -, -, heq⟩ := Annotator.declareParams_eq_error_iff.1 hparams
      cases heq
  · cases hfault with
    | function hentry =>
      obtain ⟨current, hcurrent, -⟩ :=
        (hextends.trans (decl.extends_annotate known)).lookup hbuiltin
      rw [hentry] at hcurrent
      cases hcurrent

end Decl

/-! ## Compilation -/

theorem compile_of_parse_error {name source : String} {error : Error}
    (hparse : (Module.parse name source).1 = .error error) :
    (compile name source).2 = .error error := by
  unfold compile
  rcases hresult : Module.parse name source with ⟨found | parsed, state⟩ <;> rw [hresult] at hparse
  · cases hparse
    rfl
  · cases hparse

/-- In a module that was annotated with success, every operator is tagged as it is typed. -/
theorem Decl.operatorTagged_of_annotateAll {decls : List Decl}
    (hplain : ∀ decl ∈ decls, decl.Plain) (hresult : (annotateAll .initial decls).result = .ok ()) :
    ∀ decl ∈ (annotateAll .initial decls).node, ∀ body ∈ decl.body, ∀ node ∈ body.nodes,
      node.OperatorTagged := by
  intro decl hdecl body hbody
  have htagged := (checkFrom_of_annotateAll hplain represents_builtin hresult).2
  obtain ⟨before, after, hsplit⟩ := List.append_of_mem hdecl
  obtain ⟨vars, hchecks⟩ := (checkFrom_iff.1 htagged before decl after hsplit).body body hbody
  exact body.operatorTagged_of_checks hchecks

/-- No source changes what an operator means.  After the annotation of a module that was parsed,
also if it failed, the entries of the operators are those of a new annotator; in a module that was
compiled, every operator is tagged as it is typed; and no compilation fails for want of an
operator. -/
theorem compile_keeps_operators (name source : String) :
    (∀ module, (Module.parse name source).1 = .ok module → ∀ operator ∈ Operator.all,
      (module.annotate .initial).annotator.overloads.lookup operator =
        Overloads.builtin.lookup operator) ∧
    (∀ compiled, (compile name source).2 = .ok compiled → ∀ decl ∈ compiled.module.decls,
      ∀ body ∈ decl.body, ∀ node ∈ body.nodes, node.OperatorTagged) ∧
    ∀ operator ∈ Operator.all,
      (compile name source).2 ≠ .error (.functionNotDeclared operator) := by
  cases hparse : (Module.parse name source).1 with
  | error error =>
    have hmalformed := Parser.declarations_of_parse name source
    rw [hparse] at hmalformed
    rw [compile_of_parse_error hparse]
    refine ⟨nofun, nofun, fun operator _ heq => ?_⟩
    cases heq
    cases hmalformed
  | ok module =>
    obtain ⟨-, hplain⟩ := Module.plain_of_parse hparse
    rw [compile_of_parse hparse]
    refine ⟨?_, ?_, fun operator hoperator hcompile => ?_⟩
    · rintro _ ⟨⟩ operator hoperator
      exact Decl.lookup_operator_annotateAll hplain .initial hoperator
    · intro compiled hcompile
      obtain ⟨⟨⟩, hresult, rfl⟩ := map_eq_ok_iff.1 hcompile
      exact Decl.operatorTagged_of_annotateAll hplain hresult
    · cases hresult : (module.annotate .initial).result with
      | ok done =>
        rw [hresult] at hcompile
        cases hcompile
      | error error =>
        rw [hresult] at hcompile
        cases hcompile
        exact Decl.not_operator_of_annotateAll hresult hoperator

end Frontend
