import Frontend.Proofs.Grouping

/-!
# The least nesting of derived trees

`leastNesting` counts the levels that a tree cannot do without: one for the operand of a unary
operator, for an argument, for a statement in a block, for another choice after `else`, and for
every pair of parentheses that the grouping of operators needs.  A derivation of the tree has a
largest index at least that much above the depth it starts at, whatever other parentheses its
tokens have.  The proofs follow the derivations, one case per production.
-/

namespace Frontend

namespace Stmt

mutual

/-- How many levels the statement nests if its expressions are written with the fewest
parentheses: those of expressions, one for a statement in a block and one for another choice after
`else`. -/
def leastNesting : Stmt → Nat
  | .letVar .. => 0
  | .assign _ value => value.leastNesting
  | .ifElse condition thenBranch elseBranch =>
    max condition.leastNesting
      (max thenBranch.leastNesting (branchNesting elseBranch elseBranch.leastNesting))
  | .ret value => value.leastNesting
  | .block stmts => leastNestingOfAll stmts

/-- How many levels the statements of a block nest. -/
def leastNestingOfAll : List Stmt → Nat
  | [] => 0
  | stmt :: stmts => max (stmt.leastNesting + 1) (leastNestingOfAll stmts)

end

end Stmt

namespace Decl

/-- How many levels the body nests, if there is one. -/
def leastNesting (decl : Decl) : Nat :=
  match decl.body with
  | some body => body.leastNesting
  | none => 0

/-- How many levels several declarations nest. -/
def leastNestingOfAll : List Decl → Nat
  | [] => 0
  | decl :: decls => max decl.leastNesting (leastNestingOfAll decls)

end Decl

namespace Grammar

/-! ## Expressions -/

mutual

theorem operandNesting_le_of_primary {depth top : Nat} {tokens : List Token} {expr : Expr} :
    Primary depth top tokens expr → depth + expr.operandNesting expr.leastNesting ≤ top
  | .var _ | .int _ _ | .float _ _ _ | .bool _ => Nat.le_refl _
  | .call _ hargs => leastNestingOfArgs_le_of_args hargs
  | .paren hexpr => by
    have hle := leastNesting_le_of_expression hexpr
    unfold Expr.operandNesting
    split <;> omega
  | .unary hoperand => by
    have hle := operandNesting_le_of_primary hoperand
    rw [Expr.operandNesting, if_neg (by simp [Expr.isBinary]), Expr.leastNesting]
    omega

theorem leastNesting_le_of_expression {depth top : Nat} {tokens : List Token} {expr : Expr} :
    Expression depth top tokens expr → depth + expr.leastNesting ≤ top
  | @Expression.chain depth top top' _ _ first links hfirst hlinks => by
    have hdepth := hfirst.depth_le
    have hle : (Expr.ofChain first links).leastNesting ≤ max top top' - depth := by
      refine Expr.leastNesting_ofChain_le ?_ fun link hlink => ?_
      · have hle := operandNesting_le_of_primary hfirst
        omega
      · have hle := operandNesting_le_of_links hlinks link hlink
        omega
    omega

theorem operandNesting_le_of_links {depth top : Nat} {tokens : List Token}
    {links : List (String × Expr)} : Links depth top tokens links →
    ∀ link ∈ links, depth + link.2.operandNesting link.2.leastNesting ≤ top
  | .nil, _, hmem => nomatch hmem
  | .cons _ hoperand hlinks, link, hmem => by
    rcases List.mem_cons.1 hmem with rfl | hmem
    · exact Nat.le_trans (operandNesting_le_of_primary hoperand) (Nat.le_max_left ..)
    · exact Nat.le_trans (operandNesting_le_of_links hlinks link hmem) (Nat.le_max_right ..)

theorem leastNestingOfArgs_le_of_args {depth top : Nat} {tokens : List Token} {args : List Expr} :
    Args depth top tokens args → depth + Expr.leastNestingOfArgs args ≤ top
  | .none => Nat.le_refl _
  | .some harg hargs => by
    have hle := leastNesting_le_of_expression harg
    have hle' := leastNestingOfArgs_le_of_moreArgs hargs
    rw [Expr.leastNestingOfArgs]
    omega

theorem leastNestingOfArgs_le_of_moreArgs {depth top : Nat} {tokens : List Token}
    {args : List Expr} :
    MoreArgs depth top tokens args → depth + Expr.leastNestingOfArgs args ≤ top
  | .nil => Nat.le_refl _
  | .cons harg hargs => by
    have hle := leastNesting_le_of_expression harg
    have hle' := leastNestingOfArgs_le_of_moreArgs hargs
    rw [Expr.leastNestingOfArgs]
    omega

end

/-! ## Statements -/

theorem Block.isBlock {depth top : Nat} {tokens : List Token} {stmt : Stmt}
    (hblock : Block depth top tokens stmt) : stmt.isBlock = true := by
  cases hblock
  rfl

mutual

theorem leastNesting_le_of_statement {depth top : Nat} {tokens : List Token} {stmt : Stmt} :
    Statement depth top tokens stmt → depth + stmt.leastNesting ≤ top
  | .letVar _ _ _ => Nat.le_refl _
  | .assign _ hvalue | .ret _ hvalue => leastNesting_le_of_expression hvalue
  | .call _ hargs => leastNestingOfArgs_le_of_args hargs
  | .choice hchoice => leastNesting_le_of_choice hchoice
  | .block hblock => leastNesting_le_of_block hblock

theorem leastNesting_le_of_choice {depth top : Nat} {tokens : List Token} {stmt : Stmt} :
    Choice depth top tokens stmt → depth + stmt.leastNesting ≤ top
  | .otherwise _ hcondition hthen _ helse => by
    have hle := leastNesting_le_of_expression hcondition
    have hle' := leastNesting_le_of_block hthen
    have hle'' := leastNesting_le_of_block helse
    rw [Stmt.leastNesting, Stmt.branchNesting, if_pos helse.isBlock]
    omega
  | .another _ hcondition hthen _ helse => by
    have hle := leastNesting_le_of_expression hcondition
    have hle' := leastNesting_le_of_block hthen
    have hle'' := leastNesting_le_of_choice helse
    rw [Stmt.leastNesting, Stmt.branchNesting]
    split <;> omega

theorem leastNesting_le_of_block {depth top : Nat} {tokens : List Token} {stmt : Stmt} :
    Block depth top tokens stmt → depth + stmt.leastNesting ≤ top
  | .braces hstmts => leastNestingOfAll_le_of_statements hstmts

theorem leastNestingOfAll_le_of_statements {depth top : Nat} {tokens : List Token}
    {stmts : List Stmt} :
    Statements depth top tokens stmts → depth + Stmt.leastNestingOfAll stmts ≤ top
  | .nil => Nat.le_refl _
  | .cons hstmt hstmts => by
    have hle := leastNesting_le_of_statement hstmt
    have hle' := leastNestingOfAll_le_of_statements hstmts
    rw [Stmt.leastNestingOfAll]
    omega

end

/-! ## Declarations -/

theorem leastNesting_le_of_declaration {top : Nat} {tokens : List Token} {decl : Decl}
    (hdecl : Declaration top tokens decl) : decl.leastNesting ≤ top := by
  cases hdecl with
  | defined _ _ hbody =>
    have hle := leastNesting_le_of_block hbody
    rwa [Nat.zero_add] at hle
  | external => exact Nat.le_refl 0

theorem leastNestingOfAll_le_of_declarations {top : Nat} {tokens : List Token} {decls : List Decl}
    (hdecls : Declarations top tokens decls) : Decl.leastNestingOfAll decls ≤ top := by
  induction hdecls with
  | nil => exact Nat.le_refl 0
  | cons hdecl _ ih =>
    have hle := leastNesting_le_of_declaration hdecl
    rw [Decl.leastNestingOfAll]
    omega

end Grammar

end Frontend
