import Frontend.Proofs.Acceptance
import Frontend.Proofs.Nesting
import Frontend.Proofs.Writing.Module

/-!
# The image of the parser

A list of declarations is the result of a parse exactly if it is plain and its least nesting is
within the limit of the parser.  A parsed list is plain and nests no deeper because its tokens
derive it.  For the other direction every plain tree has a text that derives it with the fewest
parentheses.

The texts are put together by the lemmas about written trees.  They differ from the source text
of a tree in the chains: `writes_links` joins two of them, as the operands of an operator that
needs no parentheses around them, and `WritableExpr` says that an expression can be a member of a
chain, or a part of one where it binds tightly enough.
-/

namespace Frontend

namespace Grammar

open Token

/-- Some text derives the tree, `levels` levels deep. -/
def Writable {α : Type} (derives : Nat → Nat → List Token → α → Prop) (levels : Nat)
    (tree : α) : Prop :=
  ∃ text, Writes derives text levels tree

/-- A blank in front of a text sets it apart from what stands before. -/
theorem Writes.blank {α : Type} {derives : Nat → Nat → List Token → α → Prop} {text : List Char}
    {levels : Nat} {tree : α} (hwrites : Writes derives text levels tree) :
    Writes derives (' ' :: text) levels tree := by
  obtain ⟨tokens, hspells, hderives⟩ := hwrites
  refine ⟨tokens, fun rest hrest => ?_, hderives⟩
  rw [List.cons_append, words_space, hspells rest hrest]

/-! ## Chains -/

theorem Links.depth_le {depth top : Nat} {tokens : List Token} {links : List (String × Expr)} :
    Links depth top tokens links → depth ≤ top
  | .nil => Nat.le_refl _
  | .cons _ hoperand _ => Nat.le_trans hoperand.depth_le (Nat.le_max_left _ _)

theorem Links.append {depth top top' : Nat} {tokens tokens' : List Token}
    {links links' : List (String × Expr)} : Links depth top tokens links →
    Links depth top' tokens' links' →
    Links depth (max top top') (tokens ++ tokens') (links ++ links')
  | .nil, hlinks' => by
    rw [Nat.max_eq_right hlinks'.depth_le]
    exact hlinks'
  | .cons hkind hoperand hlinks, hlinks' => by
    have happended := Links.cons hkind hoperand (hlinks.append hlinks')
    rwa [← Nat.max_assoc, ← List.append_assoc] at happended

theorem writes_noLinks : Writes Links [] 0 [] :=
  ⟨[], fun _ _ => rfl, fun _ => .nil⟩

/-- Two chains with an operator between them. -/
theorem writes_links {operator : String} {text text' text'' : List Char}
    {levels levels' levels'' : Nat} {operand : Expr} {links links' : List (String × Expr)}
    (hlinks : Writes Links text levels links) (hoperator : operator ∈ Operator.all)
    (hoperand : Writes Primary text' levels' operand)
    (hlinks' : Writes Links text'' levels'' links') :
    Writes Links (text ++ ' ' :: (operator.toList ++ ' ' :: (text' ++ ' ' :: text'')))
      (max levels (max levels' levels'')) (links ++ (operator, operand) :: links') := by
  obtain ⟨tokens, hspells, hderives⟩ := hlinks
  obtain ⟨tokens', hspells', hderives'⟩ := hoperand
  obtain ⟨tokens'', hspells'', hderives''⟩ := hlinks'
  have hkind : (⟨.op, operator⟩ : Token).kind = .op := rfl
  refine .intro _ (fun rest hrest => ?_)
    (fun depth => (hderives depth).append (.cons hkind (hderives' depth) (hderives'' depth)))
    (fun depth => by omega)
  simp only [List.append_assoc, List.cons_append]
  rw [hspells _ rfl, words_space, words_operator hoperator, hspells' _ rfl, words_space,
    hspells'' rest hrest]

theorem writes_ofChain {text text' : List Char} {levels levels' : Nat} {first : Expr}
    {links : List (String × Expr)} (hfirst : Writes Primary text levels first)
    (hlinks : Writes Links text' levels' links) :
    Writes Expression (text ++ ' ' :: text') (max levels levels') (.ofChain first links) := by
  obtain ⟨tokens, hspells, hderives⟩ := hfirst
  obtain ⟨tokens', hspells', hderives'⟩ := hlinks
  refine .intro _ (fun rest hrest => ?_)
    (fun depth => .chain (hderives depth) (hderives' depth)) (fun depth => by omega)
  rw [List.append_assoc, List.cons_append, hspells _ rfl, words_space, hspells' rest hrest,
    List.append_assoc]

/-- The leaves of the tree are derived as the members of a chain, as deep as the deepest of
them. -/
def WritableChain (tree : OpTree) : Prop :=
  ∃ levels levels', Writable Primary levels tree.first ∧ Writable Links levels' tree.links ∧
    max levels levels' = tree.nesting

theorem WritableChain.leaf {expr : Expr}
    (hexpr : Writable Primary (expr.operandNesting expr.leastNesting) expr) :
    WritableChain (.leaf expr) :=
  ⟨_, 0, hexpr, ⟨[], writes_noLinks⟩, Nat.max_zero _⟩

theorem WritableChain.node {operator : String} {lhs rhs : OpTree}
    (hoperator : operator ∈ Operator.all) (hlhs : WritableChain lhs) (hrhs : WritableChain rhs) :
    WritableChain (.node operator lhs rhs) := by
  obtain ⟨_, _, hfirst, ⟨text, hlinks⟩, hlevels⟩ := hlhs
  obtain ⟨_, _, ⟨text', hfirst'⟩, ⟨text'', hlinks'⟩, hlevels'⟩ := hrhs
  refine ⟨_, _, hfirst, ⟨_, writes_links hlinks hoperator hfirst' hlinks'⟩, ?_⟩
  rw [OpTree.nesting, ← hlevels, ← hlevels', Nat.max_assoc]

/-- An expression is derived as the chain that its tree is made of. -/
theorem WritableChain.expression {expr : Expr} (hplain : expr.Plain)
    (hchain : WritableChain (expr.toTree (-1))) : Writable Expression expr.leastNesting expr := by
  obtain ⟨_, _, ⟨text, hfirst⟩, ⟨text', hlinks⟩, hlevels⟩ := hchain
  have hexpression := writes_ofChain hfirst hlinks
  rw [(expr.grouped_toTree (-1)).ofChain_links, Expr.toExpr_toTree (-1) hplain, hlevels,
    Expr.nesting_toTree, Expr.groupNesting_neg_one] at hexpression
  exact ⟨_, hexpression⟩

/-! ## Expressions -/

/-- The expression is derived as an operand, in parentheses if it is binary, and as part of a
chain. -/
structure WritableExpr (expr : Expr) : Prop where
  operand : Writable Primary (expr.operandNesting expr.leastNesting) expr
  chain : ∀ least, WritableChain (expr.toTree least)

theorem WritableExpr.of_primary {expr : Expr} {text : List Char} (hbinary : expr.isBinary = false)
    (hprimary : Writes Primary text expr.leastNesting expr) : WritableExpr expr := by
  have hnesting : expr.operandNesting expr.leastNesting = expr.leastNesting :=
    if_neg (by simp [hbinary])
  have htree (least : Int) : expr.toTree least = .leaf expr := by
    cases expr with
    | binary => cases hbinary
    | int | float | bool | var | unary | call => rfl
  have hoperand : Writable Primary (expr.operandNesting expr.leastNesting) expr := by
    rw [hnesting]
    exact ⟨text, hprimary⟩
  refine ⟨hoperand, fun least => ?_⟩
  rw [htree]
  exact .leaf hoperand

theorem WritableExpr.expression {expr : Expr} (hexpr : WritableExpr expr) (hplain : expr.Plain) :
    Writable Expression expr.leastNesting expr :=
  WritableChain.expression hplain (hexpr.chain (-1))

/-- The chain of a binary expression goes on into its operands.  It stands in parentheses where its
operator binds too loosely. -/
theorem WritableExpr.binary {operator : String} {lhs rhs : Expr}
    (hplain : (Expr.binary operator lhs rhs none).Plain) (hlhs : WritableExpr lhs)
    (hrhs : WritableExpr rhs) : WritableExpr (.binary operator lhs rhs none) := by
  obtain ⟨-, hoperator, -, -⟩ := Expr.plain_binary_iff.1 hplain
  have hnode (least : Int) (hleast : ¬Operator.precedence operator < least) :
      WritableChain ((Expr.binary operator lhs rhs none).toTree least) := by
    rw [Expr.toTree, if_neg hleast]
    exact .node hoperator (hlhs.chain _) (hrhs.chain _)
  obtain ⟨text, hexpression⟩ := WritableChain.expression hplain
    (hnode (-1) (Int.not_lt.2 (Operator.neg_one_le_precedence operator)))
  have hoperand : Writable Primary _ (Expr.binary operator lhs rhs none) :=
    ⟨_, writes_paren hexpression⟩
  refine ⟨hoperand, fun least => ?_⟩
  by_cases hleast : Operator.precedence operator < least
  · rw [Expr.toTree, if_pos hleast]
    exact .leaf hoperand
  · exact hnode least hleast

mutual

theorem writable_expr : (expr : Expr) → expr.Plain → WritableExpr expr
  | .int value tag, hplain => by
    obtain rfl : tag = none := hplain.tag
    have hcanonical := hplain.canonical
    simp only [Expr.isCanonical, Bool.and_eq_true, decide_eq_true_eq] at hcanonical
    exact .of_primary rfl (writes_int hcanonical.1 hcanonical.2)
  | .float value tag, hplain => by
    obtain rfl : tag = none := hplain.tag
    obtain ⟨rank, rfl⟩ : ∃ rank, value = .finite false rank := by
      have hcanonical := hplain.canonical
      unfold Expr.isCanonical at hcanonical
      grind
    exact .of_primary rfl (writes_float rank)
  | .bool value tag, hplain => by
    obtain rfl : tag = none := hplain.tag
    exact .of_primary rfl (writes_bool value)
  | .var name tag, hplain => by
    obtain rfl : tag = none := hplain.tag
    exact .of_primary rfl (writes_var hplain.canonical)
  | .unary operator operand tag, hplain => by
    obtain ⟨rfl, rfl, hoperand⟩ := Expr.plain_unary_iff.1 hplain
    obtain ⟨text, hwrites⟩ := (writable_expr operand hoperand).operand
    exact .of_primary rfl (writes_unary hwrites)
  | .binary operator lhs rhs tag, hplain => by
    obtain ⟨rfl, -, hlhs, hrhs⟩ := Expr.plain_binary_iff.1 hplain
    exact .binary hplain (writable_expr lhs hlhs) (writable_expr rhs hrhs)
  | .call callee args tag, hplain => by
    obtain ⟨rfl, hcallee, hargs⟩ := Expr.plain_call_iff.1 hplain
    obtain ⟨text, hwrites⟩ := writable_argsOf args hargs
    exact .of_primary rfl (writes_call hcallee hwrites)

theorem writable_argsOf : (args : List Expr) → Expr.PlainAll args →
    ∃ text, Writes Args ('(' :: text) (Expr.leastNestingOfArgs args) args
  | [], _ => ⟨_, writes_noArgs⟩
  | arg :: args, hplain => by
    obtain ⟨harg, hargs⟩ := Expr.plainAll_cons_iff.1 hplain
    obtain ⟨text, hwrites⟩ := (writable_expr arg harg).expression harg
    obtain ⟨more, hmore⟩ := writable_moreArgsOf args hargs
    exact ⟨_, writes_args hwrites hmore.blank fun _ _ => rfl⟩

theorem writable_moreArgsOf : (args : List Expr) → Expr.PlainAll args →
    Writable MoreArgs (Expr.leastNestingOfArgs args) args
  | [], _ => ⟨_, writes_noMoreArgs⟩
  | arg :: args, hplain => by
    obtain ⟨harg, hargs⟩ := Expr.plainAll_cons_iff.1 hplain
    obtain ⟨text, hwrites⟩ := (writable_expr arg harg).expression harg
    obtain ⟨more, hmore⟩ := writable_moreArgsOf args hargs
    exact ⟨_, writes_moreArgs hwrites hmore.blank fun _ _ => rfl⟩

end

/-! ## Statements -/

/-- The statement is derived, and as a block or a choice if it is one. -/
structure WritableStmt (stmt : Stmt) : Prop where
  statement : Writable Statement stmt.leastNesting stmt
  block : stmt.isBlock = true → Writable Block stmt.leastNesting stmt
  choice : stmt.isIfElse = true → Writable Choice stmt.leastNesting stmt

theorem WritableStmt.otherwise {stmt : Stmt} (hstmt : WritableStmt stmt)
    (hbranch : (stmt.isBlock || stmt.isIfElse) = true) :
    Writable Otherwise (stmt.branchNesting stmt.leastNesting) stmt := by
  unfold Stmt.branchNesting
  cases hblock : stmt.isBlock with
  | true =>
    obtain ⟨text, hwrites⟩ := hstmt.block hblock
    exact ⟨text, hwrites.imp .inl⟩
  | false =>
    rw [hblock, Bool.false_or] at hbranch
    obtain ⟨text, hwrites⟩ := hstmt.choice hbranch
    exact ⟨text, writes_another hwrites⟩

/-- An assignment has a target, or it is a call whose value is dropped. -/
theorem writable_assign {target : String} {value : Expr}
    (hplain : (Stmt.assign target value).Plain) :
    Writable Statement value.leastNesting (.assign target value) := by
  obtain ⟨htarget, hvalue⟩ := Stmt.plain_assign_iff.1 hplain
  split at htarget
  · rename_i hdiscard
    obtain rfl : target = Stmt.discard := beq_iff_eq.1 hdiscard
    cases value with
    | call callee args tag =>
      obtain ⟨rfl, hcallee, hargs⟩ := Expr.plain_call_iff.1 hvalue
      obtain ⟨text, hwrites⟩ := writable_argsOf args hargs
      exact ⟨_, writes_callStmt hcallee hwrites⟩
    | int | float | bool | var | unary | binary => cases htarget
  · obtain ⟨text, hwrites⟩ := (writable_expr value hvalue).expression hvalue
    exact ⟨_, writes_assign htarget hwrites⟩

mutual

theorem writable_stmt : (stmt : Stmt) → stmt.Plain → WritableStmt stmt
  | .letVar name type, hplain => by
    have hcanonical := hplain.canonical
    simp only [Stmt.isCanonical, Bool.and_eq_true] at hcanonical
    exact ⟨⟨_, writes_letVar hcanonical.1 hcanonical.2⟩, nofun, nofun⟩
  | .assign target value, hplain => ⟨writable_assign hplain, nofun, nofun⟩
  | .ifElse condition thenBranch elseBranch, hplain => by
    obtain ⟨hcondition, ⟨hblock, hthen⟩, hbranch, helse⟩ := Stmt.plain_ifElse_iff.1 hplain
    obtain ⟨text, hwrites⟩ := (writable_expr condition hcondition).expression hcondition
    obtain ⟨text', hwrites'⟩ := (writable_stmt thenBranch hthen).block hblock
    obtain ⟨text'', hwrites''⟩ := (writable_stmt elseBranch helse).otherwise hbranch
    have hchoice := writes_choice hwrites hwrites' hwrites''
    exact ⟨⟨_, hchoice.imp .choice⟩, nofun, fun _ => ⟨_, hchoice⟩⟩
  | .ret value, hplain => by
    have hvalue := Stmt.plain_ret_iff.1 hplain
    obtain ⟨text, hwrites⟩ := (writable_expr value hvalue).expression hvalue
    exact ⟨⟨_, writes_ret hwrites⟩, nofun, nofun⟩
  | .block stmts, hplain => by
    obtain ⟨text, hwrites⟩ := writable_statementsOf stmts (Stmt.plain_block_iff.1 hplain)
    have hblock := writes_block (.inl rfl) hwrites
    exact ⟨⟨_, hblock.imp .block⟩, fun _ => ⟨_, hblock⟩, nofun⟩

theorem writable_statementsOf : (stmts : List Stmt) → Stmt.PlainAll stmts →
    Writable Statements (Stmt.leastNestingOfAll stmts) stmts
  | [], _ => ⟨_, writes_noStatements⟩
  | stmt :: stmts, hplain => by
    obtain ⟨hstmt, hstmts⟩ := Stmt.plainAll_cons_iff.1 hplain
    obtain ⟨text, hwrites⟩ := (writable_stmt stmt hstmt).statement
    obtain ⟨more, hmore⟩ := writable_statementsOf stmts hstmts
    exact ⟨_, writes_statements 0 hwrites hmore.blank fun _ _ => rfl⟩

end

/-! ## Declarations -/

theorem writable_decl {decl : Decl} (hplain : decl.Plain) :
    ∃ text tokens, Spells text tokens ∧ Declaration decl.leastNesting tokens decl := by
  obtain ⟨proto, body⟩ := decl
  cases body with
  | none => exact ⟨_, spells_external hplain.proto⟩
  | some body =>
    obtain ⟨hblock, hbody⟩ := hplain.body body rfl
    obtain ⟨text, hwrites⟩ := (writable_stmt body hbody).block hblock
    exact ⟨_, spells_defined hplain.proto hwrites⟩

theorem writable_decls {decls : List Decl} (hplain : ∀ decl ∈ decls, decl.Plain) :
    ∃ text tokens, Spells text tokens ∧
      Declarations (Decl.leastNestingOfAll decls) tokens decls := by
  induction decls with
  | nil => exact ⟨[], [], fun _ _ => rfl, .nil⟩
  | cons decl decls ih =>
    rw [List.forall_mem_cons] at hplain
    obtain ⟨text, tokens, hspells, hdecl⟩ := writable_decl hplain.1
    obtain ⟨text', tokens', hspells', hdecls⟩ := ih hplain.2
    refine ⟨text ++ ' ' :: text', tokens ++ tokens', fun rest hrest => ?_, .cons hdecl hdecls⟩
    rw [List.append_assoc, List.cons_append, hspells _ rfl, words_space, hspells' rest hrest,
      List.append_assoc]

end Grammar

/-! ## The image -/

namespace Decl

open Grammar

theorem parseAll_eq_ok_iff {source : String} {decls : List Decl} :
    (parseAll source).1 = .ok decls ↔
      ∃ top, top ≤ Parser.maxNesting ∧
        Declarations top (Token.tokenize source).dropLast decls := by
  have hmodule : (Module.parse "" source).1 = .ok ⟨"", decls⟩ ↔
      (parseAll source).1 = .ok decls := by
    show (parseAll source).1.map (Module.mk "") = _ ↔ _
    cases (parseAll source).1 <;> simp [Except.map]
  rw [← hmodule, Parser.parse_eq_ok_iff]
  exact and_iff_right rfl

theorem plain_all_iff {decls : List Decl} :
    (∀ decl ∈ decls, decl.Plain) ↔
      decls.map untagged = decls ∧ decls.all isCanonical = true := by
  have hmap : decls.map untagged = decls ↔ ∀ decl ∈ decls, decl.untagged = decl := by
    conv => lhs; rhs; rw [← List.map_id decls]
    exact List.map_inj_left
  rw [hmap, List.all_eq_true]
  constructor
  · intro hplain
    exact ⟨fun decl hdecl => (hplain decl hdecl).untagged,
      fun decl hdecl => (hplain decl hdecl).canonical⟩
  · rintro ⟨huntagged, hcanonical⟩ decl hdecl
    exact plain_iff.2 ⟨hcanonical decl hdecl, huntagged decl hdecl⟩

/-- A list of declarations is parsed from some source exactly if it has no tags, is canonical and
nests at most as deep as the parser goes when it is written with the fewest parentheses. -/
theorem exists_source_iff (decls : List Decl) :
    (∃ source, (parseAll source).1 = .ok decls) ↔
      decls.map untagged = decls ∧ decls.all isCanonical = true ∧
        leastNestingOfAll decls ≤ 256 := by
  rw [← and_assoc, ← plain_all_iff]
  constructor
  · rintro ⟨source, hparse⟩
    obtain ⟨top, htop, hdecls⟩ := parseAll_eq_ok_iff.1 hparse
    exact ⟨plain_of_declarations hdecls fun _ => Token.lexed_of_mem_words,
      Nat.le_trans (leastNestingOfAll_le_of_declarations hdecls) htop⟩
  · rintro ⟨hplain, hnesting⟩
    obtain ⟨text, tokens, hspells, hdecls⟩ := writable_decls hplain
    refine ⟨String.ofList text, parseAll_eq_ok_iff.2 ⟨_, hnesting, ?_⟩⟩
    show Declarations _ (Token.words _) decls
    rwa [String.toList_ofList, hspells.words_eq]

end Decl

end Frontend
