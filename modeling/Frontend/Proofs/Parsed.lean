import Frontend.Proofs.Canonical
import Frontend.Proofs.Grammar

/-!
# Derived trees

Every tree is plain that is derived by tokens which were cut from a text, so that their texts
fit their kinds.  The proofs follow the derivations, one case per production.
-/

namespace Frontend

/-! ## Chains -/

/-- What the leaves of a chain under construction have and a binary node keeps, the whole
chain has. -/
def OpTree.Over (operatorOk : String → Prop) (leafOk : Expr → Prop) : OpTree → Prop
  | .leaf expr => leafOk expr
  | .node operator lhs rhs =>
    operatorOk operator ∧ lhs.Over operatorOk leafOk ∧ rhs.Over operatorOk leafOk

theorem OpTree.Over.snoc {operatorOk : String → Prop} {leafOk : Expr → Prop} {operator : String}
    {operand : Expr} (hoperator : operatorOk operator) (hoperand : leafOk operand) {tree : OpTree}
    (htree : tree.Over operatorOk leafOk) :
    (tree.snoc operator operand).Over operatorOk leafOk := by
  induction tree with
  | leaf expr => exact ⟨hoperator, htree, hoperand⟩
  | node root lhs rhs _ ih =>
    unfold OpTree.snoc
    split
    · exact ⟨htree.1, htree.2.1, ih htree.2.2⟩
    · exact ⟨hoperator, htree, hoperand⟩

/-- A chain has what its members have, if a binary expression has it from its operands. -/
theorem Expr.ofChain_induction (operatorOk : String → Prop) (holds : Expr → Prop)
    (hbinary : ∀ {operator lhs rhs}, operatorOk operator → holds lhs → holds rhs →
      holds (.binary operator lhs rhs none))
    {first : Expr} {links : List (String × Expr)} (hfirst : holds first)
    (hlinks : ∀ link ∈ links, operatorOk link.1 ∧ holds link.2) :
    holds (Expr.ofChain first links) := by
  have hfold (tree : OpTree) (htree : tree.Over operatorOk holds) :
      (links.foldl (fun tree link => tree.snoc link.1 link.2) tree).Over operatorOk holds := by
    induction links generalizing tree with
    | nil => exact htree
    | cons link links ih =>
      obtain ⟨hoperator, hoperand⟩ := hlinks link (List.mem_cons_self ..)
      exact ih (fun link hmem => hlinks link (List.mem_cons_of_mem _ hmem)) _
        (htree.snoc hoperator hoperand)
  have htoExpr (tree : OpTree) (htree : tree.Over operatorOk holds) : holds tree.toExpr := by
    induction tree with
    | leaf expr => exact htree
    | node operator lhs rhs ihl ihr => exact hbinary htree.1 (ihl htree.2.1) (ihr htree.2.2)
  exact htoExpr _ (hfold (.leaf first) hfirst)

namespace Grammar

/-! ## Tokens -/

theorem identifier_of_lexed {token : Token} (hlexed : token.Lexed)
    (hkind : token.kind = .identifier) : Token.isIdentifier token.text = true := by
  unfold Token.Lexed at hlexed
  rwa [hkind] at hlexed

theorem operator_of_lexed {token : Token} (hlexed : token.Lexed) (hkind : token.kind = .op) :
    token.text ∈ Operator.all := by
  unfold Token.Lexed at hlexed
  rwa [hkind] at hlexed

/-- A literal has no sign. -/
theorem canonical_of_ofText? {text : String} {value : Binary64}
    (hvalue : Binary64.ofText? text = some value) (hfinite : value.isFinite = true) :
    (Expr.float value none).isCanonical = true := by
  have hquotient (num den : Nat) (hfinite : (Binary64.ofQuotient num den).isFinite = true) :
      (Expr.float (Binary64.ofQuotient num den) none).isCanonical = true := by
    unfold Binary64.ofQuotient at hfinite ⊢
    dsimp only at hfinite ⊢
    split
    · rfl
    · rename_i hinfinite
      rw [dif_neg hinfinite] at hfinite
      cases hfinite
  unfold Binary64.ofText? at hvalue
  dsimp only at hvalue
  split at hvalue
  · split at hvalue
    · cases hvalue
      exact hquotient _ _ hfinite
    · cases hvalue
  · cases hvalue

/-! ## Expressions -/

mutual

theorem plain_of_primary {depth top : Nat} {tokens : List Token} {expr : Expr} :
    Primary depth top tokens expr → (∀ token ∈ tokens, token.Lexed) → expr.Plain
  | .var hname, hlexed => ⟨identifier_of_lexed (hlexed _ (List.mem_singleton_self _)) hname, rfl⟩
  | .int _ hvalue, _ => by
    refine ⟨?_, rfl⟩
    simp only [Expr.isCanonical, Bool.and_eq_true, decide_eq_true_eq]
    omega
  | .float _ hvalue hfinite, _ => ⟨canonical_of_ofText? hvalue hfinite, rfl⟩
  | .bool _, _ => ⟨rfl, rfl⟩
  | .call hname hargs, hlexed => by
    rw [List.forall_mem_cons] at hlexed
    exact Expr.plain_call_iff.2
      ⟨rfl, identifier_of_lexed hlexed.1 hname, plainAll_of_args hargs hlexed.2⟩
  | .paren hexpr, hlexed => by
    rw [List.forall_mem_cons, List.forall_mem_append] at hlexed
    exact plain_of_expression hexpr hlexed.2.1
  | .unary hoperand, hlexed => by
    rw [List.forall_mem_cons] at hlexed
    exact Expr.plain_unary_iff.2 ⟨rfl, rfl, plain_of_primary hoperand hlexed.2⟩

theorem plain_of_expression {depth top : Nat} {tokens : List Token} {expr : Expr} :
    Expression depth top tokens expr → (∀ token ∈ tokens, token.Lexed) → expr.Plain
  | .chain hfirst hlinks, hlexed => by
    rw [List.forall_mem_append] at hlexed
    refine Expr.ofChain_induction (· ∈ Operator.all) Expr.Plain ?_
      (plain_of_primary hfirst hlexed.1) (plain_of_links hlinks hlexed.2)
    intro operator lhs rhs hoperator hlhs hrhs
    exact Expr.plain_binary_iff.2 ⟨rfl, hoperator, hlhs, hrhs⟩

theorem plain_of_links {depth top : Nat} {tokens : List Token} {links : List (String × Expr)} :
    Links depth top tokens links → (∀ token ∈ tokens, token.Lexed) →
    ∀ link ∈ links, link.1 ∈ Operator.all ∧ link.2.Plain
  | .nil, _, _, hmem => nomatch hmem
  | .cons hkind hoperand hlinks, hlexed, link, hmem => by
    rw [List.forall_mem_cons, List.forall_mem_append] at hlexed
    rcases List.mem_cons.1 hmem with rfl | hmem
    · exact ⟨operator_of_lexed hlexed.1 hkind, plain_of_primary hoperand hlexed.2.1⟩
    · exact plain_of_links hlinks hlexed.2.2 link hmem

theorem plainAll_of_args {depth top : Nat} {tokens : List Token} {args : List Expr} :
    Args depth top tokens args → (∀ token ∈ tokens, token.Lexed) → Expr.PlainAll args
  | .none, _ => ⟨rfl, rfl⟩
  | .some harg hargs, hlexed => by
    rw [List.forall_mem_cons, List.forall_mem_append, List.forall_mem_append] at hlexed
    exact Expr.plainAll_cons_iff.2
      ⟨plain_of_expression harg hlexed.2.1, plainAll_of_moreArgs hargs hlexed.2.2.1⟩

theorem plainAll_of_moreArgs {depth top : Nat} {tokens : List Token} {args : List Expr} :
    MoreArgs depth top tokens args → (∀ token ∈ tokens, token.Lexed) → Expr.PlainAll args
  | .nil, _ => ⟨rfl, rfl⟩
  | .cons harg hargs, hlexed => by
    rw [List.forall_mem_cons, List.forall_mem_append] at hlexed
    exact Expr.plainAll_cons_iff.2
      ⟨plain_of_expression harg hlexed.2.1, plainAll_of_moreArgs hargs hlexed.2.2⟩

end

/-! ## Statements -/

/-- The target of a dropped value is no identifier. -/
theorem discard_ne_of_identifier {name : String} (hname : Token.isIdentifier name = true) :
    (name == Stmt.discard) = false := by
  rw [beq_eq_false_iff_ne]
  rintro rfl
  exact absurd hname (by decide)

mutual

theorem plain_of_statement {depth top : Nat} {tokens : List Token} {stmt : Stmt} :
    Statement depth top tokens stmt → (∀ token ∈ tokens, token.Lexed) → stmt.Plain
  | .letVar _ hname htype, hlexed => by
    simp only [List.forall_mem_cons] at hlexed
    refine ⟨?_, rfl⟩
    simp only [Stmt.isCanonical, identifier_of_lexed hlexed.2.1 hname,
      identifier_of_lexed hlexed.2.2.2.1 htype, Bool.and_self]
  | .assign hname hvalue, hlexed => by
    simp only [List.forall_mem_cons] at hlexed
    have hidentifier := identifier_of_lexed hlexed.1 hname
    refine Stmt.plain_assign_iff.2 ⟨?_, plain_of_expression hvalue hlexed.2.2⟩
    rw [if_neg (by simp [discard_ne_of_identifier hidentifier]), hidentifier]
  | .call hname hargs, hlexed => by
    rw [List.forall_mem_cons] at hlexed
    exact Stmt.plain_assign_iff.2 ⟨rfl, Expr.plain_call_iff.2
      ⟨rfl, identifier_of_lexed hlexed.1 hname, plainAll_of_args hargs hlexed.2⟩⟩
  | .choice hchoice, hlexed => (plain_of_choice hchoice hlexed).2
  | .ret _ hvalue, hlexed => by
    rw [List.forall_mem_cons] at hlexed
    exact Stmt.plain_ret_iff.2 (plain_of_expression hvalue hlexed.2)
  | .block hblock, hlexed => (plain_of_block hblock hlexed).2

theorem plain_of_choice {depth top : Nat} {tokens : List Token} {stmt : Stmt} :
    Choice depth top tokens stmt → (∀ token ∈ tokens, token.Lexed) →
    stmt.isIfElse = true ∧ stmt.Plain
  | .otherwise _ hcondition hthen _ helse, hlexed => by
    simp only [List.forall_mem_cons, List.forall_mem_append] at hlexed
    obtain ⟨-, hlexed, hlexed', -, hlexed''⟩ := hlexed
    obtain ⟨hblock, helse⟩ := plain_of_block helse hlexed''
    exact ⟨rfl, Stmt.plain_ifElse_iff.2 ⟨plain_of_expression hcondition hlexed,
      plain_of_block hthen hlexed', by simp [hblock], helse⟩⟩
  | .another _ hcondition hthen _ helse, hlexed => by
    simp only [List.forall_mem_cons, List.forall_mem_append] at hlexed
    obtain ⟨-, hlexed, hlexed', -, hlexed''⟩ := hlexed
    obtain ⟨hchoice, helse⟩ := plain_of_choice helse hlexed''
    exact ⟨rfl, Stmt.plain_ifElse_iff.2 ⟨plain_of_expression hcondition hlexed,
      plain_of_block hthen hlexed', by simp [hchoice], helse⟩⟩

theorem plain_of_block {depth top : Nat} {tokens : List Token} {stmt : Stmt} :
    Block depth top tokens stmt → (∀ token ∈ tokens, token.Lexed) →
    stmt.isBlock = true ∧ stmt.Plain
  | .braces hstmts, hlexed => by
    rw [List.forall_mem_cons, List.forall_mem_append] at hlexed
    exact ⟨rfl, Stmt.plain_block_iff.2 (plainAll_of_statements hstmts hlexed.2.1)⟩

theorem plainAll_of_statements {depth top : Nat} {tokens : List Token} {stmts : List Stmt} :
    Statements depth top tokens stmts → (∀ token ∈ tokens, token.Lexed) → Stmt.PlainAll stmts
  | .nil, _ => ⟨rfl, rfl⟩
  | .cons hstmt hstmts, hlexed => by
    rw [List.forall_mem_append] at hlexed
    exact Stmt.plainAll_cons_iff.2
      ⟨plain_of_statement hstmt hlexed.1, plainAll_of_statements hstmts hlexed.2⟩

end

/-! ## Declarations -/

theorem canonical_of_parameter {tokens : List Token} {param : Param}
    (hparam : Parameter tokens param) (hlexed : ∀ token ∈ tokens, token.Lexed) :
    param.isCanonical = true := by
  obtain ⟨hname, htype⟩ := hparam
  simp only [List.forall_mem_cons] at hlexed
  simp only [Param.isCanonical, identifier_of_lexed hlexed.1 hname,
    identifier_of_lexed hlexed.2.2.1 htype, Bool.and_self]

theorem canonical_of_moreParams {tokens : List Token} {params : List Param}
    (hparams : MoreParams tokens params) (hlexed : ∀ token ∈ tokens, token.Lexed) :
    params.all Param.isCanonical = true := by
  induction hparams with
  | nil => rfl
  | cons hparam _ ih =>
    rw [List.forall_mem_cons, List.forall_mem_append] at hlexed
    rw [List.all_cons, canonical_of_parameter hparam hlexed.2.1, ih hlexed.2.2, Bool.and_self]

theorem canonical_of_params {tokens : List Token} {params : List Param}
    (hparams : Params tokens params) (hlexed : ∀ token ∈ tokens, token.Lexed) :
    params.all Param.isCanonical = true := by
  cases hparams with
  | none => rfl
  | some hparam hparams =>
    rw [List.forall_mem_append] at hlexed
    rw [List.all_cons, canonical_of_parameter hparam hlexed.1,
      canonical_of_moreParams hparams hlexed.2, Bool.and_self]

theorem canonical_of_proto {tokens : List Token} {proto : Prototype} (hproto : Proto tokens proto)
    (hlexed : ∀ token ∈ tokens, token.Lexed) : proto.isCanonical = true := by
  obtain ⟨hname, hparams, htype⟩ := hproto
  simp only [List.forall_mem_cons, List.forall_mem_append] at hlexed
  obtain ⟨hlexedName, -, hlexedParams, -, -, hlexedType, -⟩ := hlexed
  simp only [Prototype.isCanonical, identifier_of_lexed hlexedName hname,
    canonical_of_params hparams hlexedParams, identifier_of_lexed hlexedType htype, Bool.and_self]

theorem plain_of_declaration {top : Nat} {tokens : List Token} {decl : Decl}
    (hdecl : Declaration top tokens decl) (hlexed : ∀ token ∈ tokens, token.Lexed) :
    decl.Plain := by
  cases hdecl with
  | defined _ hproto hbody =>
    rw [List.forall_mem_cons, List.forall_mem_append] at hlexed
    refine ⟨canonical_of_proto hproto hlexed.2.1, ?_⟩
    rintro body ⟨⟩
    exact plain_of_block hbody hlexed.2.2
  | external _ hproto =>
    rw [List.forall_mem_cons] at hlexed
    exact ⟨canonical_of_proto hproto hlexed.2, nofun⟩

theorem plain_of_declarations {top : Nat} {tokens : List Token} {decls : List Decl}
    (hdecls : Declarations top tokens decls) (hlexed : ∀ token ∈ tokens, token.Lexed) :
    ∀ decl ∈ decls, decl.Plain := by
  induction hdecls with
  | nil => nofun
  | cons hdecl _ ih =>
    rw [List.forall_mem_append] at hlexed
    rw [List.forall_mem_cons]
    exact ⟨plain_of_declaration hdecl hlexed.1, ih hlexed.2⟩

end Grammar

end Frontend
