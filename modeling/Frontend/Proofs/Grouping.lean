import Frontend.Proofs.Canonical
import Frontend.Proofs.Parsed

/-!
# Grouping and parentheses

Which trees of operators a chain without parentheses can stand for, and how deep an expression
nests that is written with no parentheses but those it needs.

- `OpTree.Grouped`: along every path of the tree the operators bind tighter, to the left at least
  equally.  Adding a link keeps that (`Grouped.snoc`), and a grouped tree is what its own leaves and
  operators are grouped to, read from left to right (`Grouped.extend_links`).
- `Expr.leastNesting`: the nesting with the fewest parentheses.  No chain stands for an
  expression that nests deeper than its members (`leastNesting_ofChain_le`), and the members of
  `Expr.toTree` are a chain for which that bound is met (`nesting_toTree`).
-/

namespace Frontend

theorem Operator.neg_one_le_precedence (text : String) : -1 ≤ precedence text := by
  have hall : ∀ entry ∈ precedences, -1 ≤ entry.2 := by decide
  unfold precedence
  cases hlookup : precedences.lookup text with
  | none => exact Int.le_refl _
  | some value =>
    obtain ⟨before, after, hsplit, -⟩ := List.lookup_eq_some_iff.1 hlookup
    exact hall (text, value) (by simp [hsplit])

open Operator

namespace OpTree

/-! ## Grouped trees -/

/-- The operators of the tree bind at least as tightly as `least`, those of a left operand at least
as tightly as the operator above and those of a right operand tighter. -/
def Grouped (least : Int) : OpTree → Prop
  | .leaf _ => True
  | .node operator lhs rhs =>
    least ≤ precedence operator ∧ lhs.Grouped (precedence operator) ∧
      rhs.Grouped (precedence operator + 1)

theorem Grouped.snoc {least : Int} {tree : OpTree} (hgrouped : tree.Grouped least)
    {operator : String} (hleast : least ≤ precedence operator) (operand : Expr) :
    (tree.snoc operator operand).Grouped least := by
  induction tree generalizing least with
  | leaf expr => exact ⟨hleast, trivial, trivial⟩
  | node root lhs rhs _ ihr =>
    obtain ⟨hroot, hlhs, hrhs⟩ := hgrouped
    unfold OpTree.snoc
    split
    · rename_i htighter
      exact ⟨hroot, hlhs, ihr hrhs htighter⟩
    · rename_i hlooser
      exact ⟨hleast, ⟨Int.not_lt.1 hlooser, hlhs, hrhs⟩, trivial⟩

/-- The leftmost leaf. -/
def first : OpTree → Expr
  | .leaf expr => expr
  | .node _ lhs _ => lhs.first

/-- The operators and leaves after the first leaf, from left to right. -/
def links : OpTree → List (String × Expr)
  | .leaf _ => []
  | .node operator lhs rhs => lhs.links ++ (operator, rhs.first) :: rhs.links

theorem Grouped.le_precedence {least : Int} {tree : OpTree} (hgrouped : tree.Grouped least) :
    ∀ link ∈ tree.links, least ≤ precedence link.1 := by
  induction tree generalizing least with
  | leaf expr => nofun
  | node operator lhs rhs ihl ihr =>
    obtain ⟨hleast, hlhs, hrhs⟩ := hgrouped
    simp only [links, List.forall_mem_append, List.forall_mem_cons]
    refine ⟨fun link hlink => ?_, hleast, fun link hlink => ?_⟩
    · exact Int.le_trans hleast (ihl hlhs link hlink)
    · have htighter := ihr hrhs link hlink
      omega

/-- The tree with several more links at its right end. -/
def extend (tree : OpTree) (links : List (String × Expr)) : OpTree :=
  links.foldl (fun tree link => tree.snoc link.1 link.2) tree

/-- Links that all bind tighter than the root go to its right operand. -/
theorem extend_node {operator : String} {links : List (String × Expr)}
    (htighter : ∀ link ∈ links, precedence operator + 1 ≤ precedence link.1) (lhs rhs : OpTree) :
    (node operator lhs rhs).extend links = node operator lhs (rhs.extend links) := by
  induction links generalizing rhs with
  | nil => rfl
  | cons link links ih =>
    rw [List.forall_mem_cons] at htighter
    have hsnoc : (node operator lhs rhs).snoc link.1 link.2 =
        node operator lhs (rhs.snoc link.1 link.2) :=
      if_pos htighter.1
    show extend (snoc link.1 link.2 (node operator lhs rhs)) links = _
    rw [hsnoc, ih htighter.2]
    rfl

/-- A tree becomes the left operand of an operator that binds no tighter than its root. -/
theorem Grouped.snoc_eq_node {operator : String} {tree : OpTree}
    (hgrouped : tree.Grouped (precedence operator)) (operand : Expr) :
    tree.snoc operator operand = node operator tree (leaf operand) := by
  cases tree with
  | leaf expr => rfl
  | node root lhs rhs => exact if_neg (Int.not_lt.2 hgrouped.1)

/-- A grouped tree is what its leaves and operators are grouped to. -/
theorem Grouped.extend_links {least : Int} {tree : OpTree} (hgrouped : tree.Grouped least) :
    (leaf tree.first).extend tree.links = tree := by
  induction tree generalizing least with
  | leaf expr => rfl
  | node operator lhs rhs ihl ihr =>
    obtain ⟨-, hlhs, hrhs⟩ := hgrouped
    calc (leaf lhs.first).extend (lhs.links ++ (operator, rhs.first) :: rhs.links)
      _ = (((leaf lhs.first).extend lhs.links).snoc operator rhs.first).extend rhs.links :=
        List.foldl_append
      _ = (node operator lhs (leaf rhs.first)).extend rhs.links := by
        rw [ihl hlhs, hlhs.snoc_eq_node]
      _ = node operator lhs rhs := by rw [extend_node hrhs.le_precedence, ihr hrhs]

theorem Grouped.ofChain_links {least : Int} {tree : OpTree} (hgrouped : tree.Grouped least) :
    Expr.ofChain tree.first tree.links = tree.toExpr :=
  congrArg toExpr hgrouped.extend_links

end OpTree

/-! ## The fewest parentheses -/

namespace Expr

/-- Whether the root is a binary operator that binds looser than `least`. -/
def bindsBelow (least : Int) : Expr → Bool
  | .binary operator .. => precedence operator < least
  | _ => false

/-- The nesting of the operand of a binary operator: it stands in parentheses if its own operator
binds looser than `least`. -/
def groupNesting (least : Int) (operand : Expr) (nesting : Nat) : Nat :=
  if operand.bindsBelow least then nesting + 1 else nesting

mutual

/-- How many levels the expression nests if it is written with the fewest parentheses: one for the
operand of a unary operator, for an argument and for a binary expression that is the operand of a
unary operator, the left operand of an operator that binds tighter than its own, or the right
operand of an operator that binds at least as tightly as its own. -/
def leastNesting : Expr → Nat
  | .int .. | .float .. | .bool .. | .var .. => 0
  | .unary _ operand _ => operandNesting operand operand.leastNesting + 1
  | .binary operator lhs rhs _ =>
    max (groupNesting (precedence operator) lhs lhs.leastNesting)
      (groupNesting (precedence operator + 1) rhs rhs.leastNesting)
  | .call _ args _ => leastNestingOfArgs args

/-- How many levels several arguments nest. -/
def leastNestingOfArgs : List Expr → Nat
  | [] => 0
  | arg :: args => max (arg.leastNesting + 1) (leastNestingOfArgs args)

end

theorem groupNesting_le_operandNesting (least : Int) (expr : Expr) (nesting : Nat) :
    groupNesting least expr nesting ≤ operandNesting expr nesting := by
  unfold groupNesting operandNesting
  cases expr with
  | binary =>
    rw [if_pos (show isBinary (binary ..) = true from rfl)]
    split <;> omega
  | int | float | bool | var | unary | call => exact Nat.le_refl _

/-- Without an operator around it an expression needs no parentheses. -/
theorem groupNesting_neg_one (expr : Expr) (nesting : Nat) :
    groupNesting (-1) expr nesting = nesting := by
  unfold groupNesting
  cases expr with
  | binary operator =>
    have hle := neg_one_le_precedence operator
    simp only [bindsBelow, decide_eq_true_eq]
    exact if_neg (Int.not_lt.2 hle)
  | int | float | bool | var | unary | call => rfl

end Expr

namespace OpTree

/-- How many levels the leaves of the tree nest, each as an operand. -/
def nesting : OpTree → Nat
  | .leaf expr => expr.operandNesting expr.leastNesting
  | .node _ lhs rhs => max lhs.nesting rhs.nesting

theorem nesting_snoc (operator : String) (operand : Expr) (tree : OpTree) :
    (tree.snoc operator operand).nesting =
      max tree.nesting (operand.operandNesting operand.leastNesting) := by
  induction tree with
  | leaf expr => rfl
  | node root lhs rhs _ ihr =>
    unfold OpTree.snoc
    split
    · rw [nesting, ihr, nesting, Nat.max_assoc]
    · rfl

/-- Parentheses in a grouped tree stand around leaves only. -/
theorem Grouped.groupNesting_le {least : Int} {tree : OpTree} (hgrouped : tree.Grouped least) :
    tree.toExpr.groupNesting least tree.toExpr.leastNesting ≤ tree.nesting := by
  induction tree generalizing least with
  | leaf expr => exact Expr.groupNesting_le_operandNesting least expr _
  | node operator lhs rhs ihl ihr =>
    obtain ⟨hleast, hlhs, hrhs⟩ := hgrouped
    have hroot : ¬(toExpr (.node operator lhs rhs)).bindsBelow least = true := by
      simp only [toExpr, Expr.bindsBelow, decide_eq_true_eq]
      omega
    rw [Expr.groupNesting, if_neg hroot, toExpr, Expr.leastNesting, nesting]
    have hl := ihl hlhs
    have hr := ihr hrhs
    omega

end OpTree

namespace Expr

/-- A chain nests no deeper than its members. -/
theorem leastNesting_ofChain_le {levels : Nat} {first : Expr} {links : List (String × Expr)}
    (hfirst : first.operandNesting first.leastNesting ≤ levels)
    (hlinks : ∀ link ∈ links, link.2.operandNesting link.2.leastNesting ≤ levels) :
    (ofChain first links).leastNesting ≤ levels := by
  have hfold : ((OpTree.leaf first).extend links).Grouped (-1) ∧
      ((OpTree.leaf first).extend links).nesting ≤ levels := by
    refine List.foldlRecOn (motive := fun (tree : OpTree) => tree.Grouped (-1) ∧ tree.nesting ≤ levels)
      links _ ⟨trivial, hfirst⟩ fun tree htree link hlink => ?_
    rw [OpTree.nesting_snoc]
    exact ⟨htree.1.snoc (neg_one_le_precedence link.1) link.2,
      Nat.max_le.2 ⟨htree.2, hlinks link hlink⟩⟩
  have hnesting := hfold.1.groupNesting_le
  rw [groupNesting_neg_one] at hnesting
  exact Nat.le_trans hnesting hfold.2

/-- The expression as a tree whose leaves are the operands in parentheses, and those that are no
binary expressions. -/
def toTree (least : Int) : Expr → OpTree
  | .binary operator lhs rhs tag =>
    if precedence operator < least then .leaf (.binary operator lhs rhs tag)
    else .node operator (lhs.toTree (precedence operator)) (rhs.toTree (precedence operator + 1))
  | expr => .leaf expr

theorem grouped_toTree (least : Int) (expr : Expr) : (expr.toTree least).Grouped least := by
  fun_induction toTree least expr with
  | case1 => trivial
  | case2 least operator lhs rhs tag hbelow ihl ihr => exact ⟨Int.not_lt.1 hbelow, ihl, ihr⟩
  | case3 => trivial

theorem toExpr_toTree (least : Int) {expr : Expr} (hplain : expr.Plain) :
    (expr.toTree least).toExpr = expr := by
  fun_induction toTree least expr with
  | case1 => rfl
  | case2 least operator lhs rhs tag _ ihl ihr =>
    obtain ⟨rfl, -, hlhs, hrhs⟩ := plain_binary_iff.1 hplain
    rw [OpTree.toExpr, ihl hlhs, ihr hrhs]
  | case3 => rfl

theorem nesting_toTree (least : Int) (expr : Expr) :
    (expr.toTree least).nesting = expr.groupNesting least expr.leastNesting := by
  fun_induction toTree least expr with
  | case1 least operator lhs rhs tag hbelow =>
    have hroot : (binary operator lhs rhs tag).bindsBelow least = true := decide_eq_true hbelow
    rw [groupNesting, if_pos hroot]
    rfl
  | case2 least operator lhs rhs tag hbelow ihl ihr =>
    have hroot : ¬(binary operator lhs rhs tag).bindsBelow least = true := by
      simpa only [bindsBelow, decide_eq_true_eq] using hbelow
    rw [groupNesting, if_neg hroot, OpTree.nesting, ihl, ihr, leastNesting]
  | case3 expr least hbinary =>
    cases expr with
    | binary operator lhs rhs tag => exact absurd rfl (hbinary operator lhs rhs tag)
    | int | float | bool | var | unary | call => rfl

end Expr

end Frontend
