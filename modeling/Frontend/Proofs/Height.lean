import Frontend.Proofs.Nesting
import Frontend.Proofs.RoundTrip

/-!
# The height of parsed trees

How high the trees of an accepted program can be.  The parser limits how deep a source nests, and
most ways down a tree cost a level of nesting: into a block, an argument, the operand of a unary
operator, or through parentheses.  A path through binary operators costs none.  It can only turn
to the right as often as there are levels of precedence, but it can go on to the left as long as
the chain does.

- `Expr.turns` counts the steps of a path that do not go to a left operand, which the nesting
  bounds (`turns_le`).
- `Expr.longestSpine` is the longest way down through left operands.  Height is bounded by the two
  together (`height_le_turns`).

So the height of an accepted program is bounded by its longest spine, up to constants, and by
nothing less: chains of any length are accepted (`Module.heights_unbounded`).
-/

open Frontend.Grammar Frontend.Parser

namespace Frontend

/-! ## Levels of precedence -/

namespace Operator

/-- The precedences that an operator can have. -/
def levels : List Int :=
  (precedences.map Prod.snd).eraseDups

/-- How many levels of precedence bind at least as tightly as `least`. -/
def levelsFrom (least : Int) : Nat :=
  levels.countP fun level => least ≤ level

theorem levelsFrom_le (least : Int) : levelsFrom least ≤ 3 :=
  List.countP_le_length

theorem levelsFrom_anti {least least' : Int} (hle : least ≤ least') :
    levelsFrom least' ≤ levelsFrom least := by
  refine List.countP_mono_left fun level _ hlevel => ?_
  simp only [decide_eq_true_eq] at hlevel ⊢
  omega

theorem levelsFrom_succ_lt {operator : String} (hoperator : operator ∈ Operator.all) :
    levelsFrom (precedence operator + 1) < levelsFrom (precedence operator) := by
  have hall : ∀ operator ∈ Operator.all,
      levelsFrom (precedence operator + 1) < levelsFrom (precedence operator) := by decide
  exact hall operator hoperator

end Operator

/-! ## Expressions -/

namespace Expr

open Operator

mutual

/-- The number of nodes on the longest path down the tree. -/
def height : Expr → Nat
  | .int .. | .float .. | .bool .. | .var .. => 1
  | .unary _ operand _ => operand.height + 1
  | .binary _ lhs rhs _ => max lhs.height rhs.height + 1
  | .call _ args _ => heightOfAll args + 1

/-- The height of the highest of several expressions. -/
def heightOfAll : List Expr → Nat
  | [] => 0
  | expr :: exprs => max expr.height (heightOfAll exprs)

end

/-- The number of binary operators from the root down through left operands. -/
def spine : Expr → Nat
  | .binary _ lhs _ _ => lhs.spine + 1
  | _ => 0

mutual

/-- The longest spine in the tree. -/
def longestSpine : Expr → Nat
  | .int .. | .float .. | .bool .. | .var .. => 0
  | .unary _ operand _ => operand.longestSpine
  | .binary _ lhs rhs _ => max (lhs.spine + 1) (max lhs.longestSpine rhs.longestSpine)
  | .call _ args _ => longestSpineOfAll args

/-- The longest spine in several expressions. -/
def longestSpineOfAll : List Expr → Nat
  | [] => 0
  | expr :: exprs => max expr.longestSpine (longestSpineOfAll exprs)

end

mutual

/-- The most steps on a path down the tree that go elsewhere than to a left operand. -/
def turns : Expr → Nat
  | .int .. | .float .. | .bool .. | .var .. => 0
  | .unary _ operand _ => operand.turns + 1
  | .binary _ lhs rhs _ => max lhs.turns (rhs.turns + 1)
  | .call _ args _ => turnsOfArgs args

/-- The most such steps on a path that begins with one to an argument. -/
def turnsOfArgs : List Expr → Nat
  | [] => 0
  | arg :: args => max (arg.turns + 1) (turnsOfArgs args)

end

theorem spine_le_longestSpine (expr : Expr) : expr.spine ≤ expr.longestSpine := by
  cases expr with
  | binary operator lhs rhs tag => exact Nat.le_max_left ..
  | int | float | bool | var | unary | call => exact Nat.zero_le _

theorem spine_lt_height (expr : Expr) : expr.spine < expr.height := by
  induction expr using spine.induct with
  | case1 operator lhs rhs tag ih =>
    rw [spine, height]
    omega
  | case2 expr hbinary =>
    cases expr with
    | binary operator lhs rhs tag => exact absurd rfl (hbinary operator lhs rhs tag)
    | int | float | bool | var | unary | call => exact Nat.zero_lt_succ _

mutual

theorem longestSpine_lt_height : (expr : Expr) → expr.longestSpine < expr.height
  | .int .. | .float .. | .bool .. | .var .. => Nat.zero_lt_one
  | .unary _ operand _ => Nat.lt_succ_of_lt (longestSpine_lt_height operand)
  | .binary _ lhs rhs _ => by
    have hspine := lhs.spine_lt_height
    have hlhs := longestSpine_lt_height lhs
    have hrhs := longestSpine_lt_height rhs
    rw [longestSpine, height]
    omega
  | .call _ args _ => Nat.lt_succ_of_le (longestSpineOfAll_le_heightOfAll args)

theorem longestSpineOfAll_le_heightOfAll : (exprs : List Expr) →
    longestSpineOfAll exprs ≤ heightOfAll exprs
  | [] => Nat.le_refl 0
  | expr :: exprs => by
    have hexpr := longestSpine_lt_height expr
    have hexprs := longestSpineOfAll_le_heightOfAll exprs
    rw [longestSpineOfAll, heightOfAll]
    omega

end

mutual

/-- Between two turns a path goes down one spine. -/
theorem height_le_turns {bound : Nat} : (expr : Expr) → expr.longestSpine ≤ bound →
    expr.height ≤ expr.spine + expr.turns * (bound + 1) + 1
  | .int .., _ | .float .., _ | .bool .., _ | .var .., _ => by
    simp [height, spine, turns]
  | .unary _ operand _, hbound => by
    have hle := height_le_turns operand hbound
    have hspine : operand.spine ≤ bound := Nat.le_trans operand.spine_le_longestSpine hbound
    simp only [height, spine, turns, Nat.add_mul]
    omega
  | .binary _ lhs rhs _, hbound => by
    obtain ⟨-, hboundOperands⟩ := Nat.max_le.1 hbound
    obtain ⟨hboundLhs, hboundRhs⟩ := Nat.max_le.1 hboundOperands
    have hlhs := height_le_turns lhs hboundLhs
    have hrhs := height_le_turns rhs hboundRhs
    have hspine : rhs.spine ≤ bound := Nat.le_trans rhs.spine_le_longestSpine hboundRhs
    have hleft : lhs.turns * (bound + 1) ≤ max lhs.turns (rhs.turns + 1) * (bound + 1) :=
      Nat.mul_le_mul_right _ (Nat.le_max_left ..)
    have hright : (rhs.turns + 1) * (bound + 1) ≤ max lhs.turns (rhs.turns + 1) * (bound + 1) :=
      Nat.mul_le_mul_right _ (Nat.le_max_right ..)
    rw [Nat.add_mul] at hright
    rw [height, spine, turns]
    omega
  | .call _ args _, hbound => by
    have hle := heightOfAll_le_turns args hbound
    simp only [height, spine, turns]
    omega

theorem heightOfAll_le_turns {bound : Nat} : (args : List Expr) →
    longestSpineOfAll args ≤ bound → heightOfAll args ≤ turnsOfArgs args * (bound + 1)
  | [], _ => Nat.zero_le _
  | arg :: args, hbound => by
    obtain ⟨hboundArg, hboundArgs⟩ := Nat.max_le.1 hbound
    have harg := height_le_turns arg hboundArg
    have hargs := heightOfAll_le_turns args hboundArgs
    have hspine : arg.spine ≤ bound := Nat.le_trans arg.spine_le_longestSpine hboundArg
    have hfirst : (arg.turns + 1) * (bound + 1) ≤
        max (arg.turns + 1) (turnsOfArgs args) * (bound + 1) :=
      Nat.mul_le_mul_right _ (Nat.le_max_left ..)
    have hothers : turnsOfArgs args * (bound + 1) ≤
        max (arg.turns + 1) (turnsOfArgs args) * (bound + 1) :=
      Nat.mul_le_mul_right _ (Nat.le_max_right ..)
    rw [Nat.add_mul] at hfirst
    rw [heightOfAll, turnsOfArgs]
    omega

end

mutual

/-- A turn costs a level of nesting, or it is one to the right that goes on to operators that bind
tighter.  In an operand that stands in parentheses the levels of precedence begin anew. -/
theorem turns_le : (expr : Expr) → expr.isCanonical = true → (least : Int) →
    expr.turns ≤ levelsFrom least + 4 * expr.groupNesting least expr.leastNesting
  | .int .., _, _ | .float .., _, _ | .bool .., _, _ | .var .., _, _ => Nat.zero_le _
  | .unary operator operand tag, hcanonical, least => by
    simp only [isCanonical, Bool.and_eq_true] at hcanonical
    have hoperand := turns_le operand hcanonical.2 (-1)
    have hlevels := levelsFrom_le (-1)
    have hgroup : groupNesting least (.unary operator operand tag)
        (leastNesting (.unary operator operand tag)) =
          operandNesting operand operand.leastNesting + 1 := rfl
    have hnesting : operand.leastNesting ≤ operandNesting operand operand.leastNesting := by
      unfold operandNesting
      split <;> omega
    rw [groupNesting_neg_one] at hoperand
    rw [turns, hgroup]
    omega
  | .binary operator lhs rhs tag, hcanonical, least => by
    simp only [isCanonical, Bool.and_eq_true, List.contains_iff_mem] at hcanonical
    have hlhs := turns_le lhs hcanonical.1.2 (precedence operator)
    have hrhs := turns_le rhs hcanonical.2 (precedence operator + 1)
    have hlt := levelsFrom_succ_lt hcanonical.1.1
    have hlevels := levelsFrom_le (precedence operator)
    have hnode : turns (.binary operator lhs rhs tag) ≤ levelsFrom (precedence operator) +
        4 * leastNesting (.binary operator lhs rhs tag) := by
      rw [turns, leastNesting]
      omega
    unfold groupNesting
    split
    · omega
    · rename_i hbelow
      simp only [bindsBelow, decide_eq_true_eq] at hbelow
      have hanti := levelsFrom_anti (Int.not_lt.1 hbelow)
      omega
  | .call callee args tag, hcanonical, least => by
    simp only [isCanonical, Bool.and_eq_true] at hcanonical
    have hargs := turnsOfArgs_le args hcanonical.2
    have hgroup : groupNesting least (.call callee args tag)
        (leastNesting (.call callee args tag)) = leastNestingOfArgs args := rfl
    rw [turns, hgroup]
    omega

theorem turnsOfArgs_le : (args : List Expr) → areCanonical args = true →
    turnsOfArgs args ≤ 4 * leastNestingOfArgs args
  | [], _ => Nat.zero_le _
  | arg :: args, hcanonical => by
    simp only [areCanonical, Bool.and_eq_true] at hcanonical
    have harg := turns_le arg hcanonical.1 (-1)
    have hargs := turnsOfArgs_le args hcanonical.2
    have hlevels := levelsFrom_le (-1)
    rw [groupNesting_neg_one] at harg
    rw [turnsOfArgs, leastNestingOfArgs]
    omega

end

/-- The height that an expression can have which nests at most `nesting` levels and has no spine
longer than `spine`. -/
def heightLimit (nesting spine : Nat) : Nat :=
  (4 * nesting + 4) * (spine + 1)

theorem height_le_limit {expr : Expr} (hcanonical : expr.isCanonical = true) {nesting bound : Nat}
    (hnesting : expr.leastNesting ≤ nesting) (hspine : expr.longestSpine ≤ bound) :
    expr.height ≤ heightLimit nesting bound := by
  have hheight := height_le_turns expr hspine
  have hturns := turns_le expr hcanonical (-1)
  have hlevels := levelsFrom_le (-1)
  have hroot := Nat.le_trans expr.spine_le_longestSpine hspine
  rw [groupNesting_neg_one] at hturns
  have hmul : (expr.turns + 1) * (bound + 1) ≤ heightLimit nesting bound :=
    Nat.mul_le_mul_right _ (by omega)
  rw [Nat.add_mul] at hmul
  omega

end Expr

/-! ## Statements -/

namespace Stmt

mutual

/-- The number of nodes on the longest path down the tree, through its expressions too. -/
def height : Stmt → Nat
  | .letVar .. => 1
  | .assign _ value => value.height + 1
  | .ifElse condition thenBranch elseBranch =>
    max condition.height (max thenBranch.height elseBranch.height) + 1
  | .ret value => value.height + 1
  | .block stmts => heightOfAll stmts + 1

/-- The height of the highest of several statements. -/
def heightOfAll : List Stmt → Nat
  | [] => 0
  | stmt :: stmts => max stmt.height (heightOfAll stmts)

end

mutual

/-- The longest spine in the expressions of the statement. -/
def longestSpine : Stmt → Nat
  | .letVar .. => 0
  | .assign _ value => value.longestSpine
  | .ifElse condition thenBranch elseBranch =>
    max condition.longestSpine (max thenBranch.longestSpine elseBranch.longestSpine)
  | .ret value => value.longestSpine
  | .block stmts => longestSpineOfAll stmts

/-- The longest spine in several statements. -/
def longestSpineOfAll : List Stmt → Nat
  | [] => 0
  | stmt :: stmts => max stmt.longestSpine (longestSpineOfAll stmts)

end

mutual

theorem longestSpine_le_height : (stmt : Stmt) → stmt.longestSpine ≤ stmt.height
  | .letVar .. => Nat.zero_le _
  | .assign _ value | .ret value => by
    have hvalue := value.longestSpine_lt_height
    rw [longestSpine, height]
    omega
  | .ifElse condition thenBranch elseBranch => by
    have hcondition := condition.longestSpine_lt_height
    have hthen := longestSpine_le_height thenBranch
    have helse := longestSpine_le_height elseBranch
    rw [longestSpine, height]
    omega
  | .block stmts => Nat.le_succ_of_le (longestSpineOfAll_le_heightOfAll stmts)

theorem longestSpineOfAll_le_heightOfAll : (stmts : List Stmt) →
    longestSpineOfAll stmts ≤ heightOfAll stmts
  | [] => Nat.le_refl 0
  | stmt :: stmts => by
    have hstmt := longestSpine_le_height stmt
    have hstmts := longestSpineOfAll_le_heightOfAll stmts
    rw [longestSpineOfAll, heightOfAll]
    omega

end

section Limits

variable {nesting bound : Nat}

mutual

/-- A block adds one node and the statement in it at most another one for each level, before an
expression is reached. -/
theorem height_le_limit : (stmt : Stmt) → stmt.isCanonical = true → stmt.leastNesting ≤ nesting →
    stmt.longestSpine ≤ bound →
    stmt.height ≤ 2 * stmt.leastNesting + 2 + Expr.heightLimit nesting bound ∧
      (stmt.isBlock = true →
        stmt.height ≤ 2 * stmt.leastNesting + 1 + Expr.heightLimit nesting bound)
  | .letVar .., _, _, _ => by
    rw [height]
    exact ⟨by omega, nofun⟩
  | .assign _ value, hcanonical, hnesting, hspine => by
    simp only [isCanonical, Bool.and_eq_true] at hcanonical
    have hvalue := Expr.height_le_limit hcanonical.2 hnesting hspine
    rw [height]
    exact ⟨by omega, nofun⟩
  | .ifElse condition thenBranch elseBranch, hcanonical, hnesting, hspine => by
    simp only [isCanonical, Bool.and_eq_true] at hcanonical
    obtain ⟨⟨hcondition, hblock, hthen⟩, -, helse⟩ := hcanonical
    rw [leastNesting] at hnesting
    rw [longestSpine] at hspine
    have hbranch : elseBranch.leastNesting ≤
        branchNesting elseBranch elseBranch.leastNesting := by
      unfold branchNesting
      split <;> omega
    have hcondition : condition.height ≤ Expr.heightLimit nesting bound :=
      Expr.height_le_limit hcondition (by omega) (by omega)
    have hthen := (height_le_limit thenBranch hthen (by omega) (by omega)).2 hblock
    have helse := height_le_limit elseBranch helse (by omega) (by omega)
    refine ⟨?_, nofun⟩
    rw [height, leastNesting]
    cases hlast : elseBranch.isBlock with
    | true =>
      have helse := helse.2 hlast
      omega
    | false =>
      have hanother : branchNesting elseBranch elseBranch.leastNesting =
          elseBranch.leastNesting + 1 := if_neg (by simp [hlast])
      omega
  | .ret value, hcanonical, hnesting, hspine => by
    simp only [isCanonical] at hcanonical
    have hvalue := Expr.height_le_limit hcanonical hnesting hspine
    rw [height]
    exact ⟨by omega, nofun⟩
  | .block stmts, hcanonical, hnesting, hspine => by
    simp only [isCanonical] at hcanonical
    have hstmts := heightOfAll_le_limit stmts hcanonical hnesting hspine
    rw [height, leastNesting]
    exact ⟨by omega, fun _ => by omega⟩

theorem heightOfAll_le_limit : (stmts : List Stmt) → areCanonical stmts = true →
    leastNestingOfAll stmts ≤ nesting → longestSpineOfAll stmts ≤ bound →
    heightOfAll stmts ≤ 2 * leastNestingOfAll stmts + Expr.heightLimit nesting bound
  | [], _, _, _ => Nat.zero_le _
  | stmt :: stmts, hcanonical, hnesting, hspine => by
    simp only [areCanonical, Bool.and_eq_true] at hcanonical
    rw [leastNestingOfAll] at hnesting
    rw [longestSpineOfAll] at hspine
    have hstmt := (height_le_limit stmt hcanonical.1 (by omega) (by omega)).1
    have hstmts := heightOfAll_le_limit stmts hcanonical.2 (by omega) (by omega)
    rw [heightOfAll, leastNestingOfAll]
    omega

end

end Limits

end Stmt

/-! ## Accepted programs -/

theorem Decl.leastNesting_le_of_mem {decl : Decl} {decls : List Decl} (hmem : decl ∈ decls) :
    decl.leastNesting ≤ leastNestingOfAll decls := by
  induction decls with
  | nil => cases hmem
  | cons first decls ih =>
    rw [leastNestingOfAll]
    rcases List.mem_cons.1 hmem with rfl | hmem
    · exact Nat.le_max_left ..
    · exact Nat.le_trans (ih hmem) (Nat.le_max_right ..)

namespace Module

/-- The body of a function in an accepted program is at most as high as its longest spine allows,
and at least as high as this spine.  A source that nests too deep is refused for this reason. -/
theorem height_limited_by_spine (name source : String) :
    (∀ module, (Module.parse name source).1 = .ok module →
      ∀ decl ∈ module.decls, ∀ body ∈ decl.body,
        body.longestSpine ≤ body.height ∧
        body.height ≤ 2 * maxNesting + 1 + (4 * maxNesting + 4) * (body.longestSpine + 1)) ∧
    ∀ top decls, Declarations top (Token.tokenize source).dropLast decls → maxNesting < top →
      (Module.parse name source).1 = .error (.nestingTooDeep maxNesting) := by
  constructor
  · intro module hparse decl hdecl body hbody
    refine ⟨body.longestSpine_le_height, ?_⟩
    obtain ⟨-, top, htop, hdecls⟩ := parse_eq_ok_iff.1 hparse
    have hplain := plain_of_declarations hdecls (fun _ => Token.lexed_of_mem_words) decl hdecl
    obtain ⟨hblock, hplain⟩ := hplain.body body hbody
    have hnesting : body.leastNesting ≤ maxNesting := by
      have hle := Decl.leastNesting_le_of_mem hdecl
      have hderived := leastNestingOfAll_le_of_declarations hdecls
      simp only [Decl.leastNesting, Option.mem_def.1 hbody] at hle
      omega
    have hheight := (body.height_le_limit hplain.canonical hnesting (Nat.le_refl _)).2 hblock
    unfold Expr.heightLimit at hheight
    omega
  · intro top decls hdecls hdeep
    rw [parse_of_declarations hdecls, if_neg (Nat.not_le.2 hdeep)]

theorem height_chainExpr (count : Nat) : (chainExpr count).height = count + 1 := by
  induction count with
  | zero => rfl
  | succ count ih =>
    have hone : (Expr.int 1 none).height = 1 := rfl
    rw [chainExpr, Expr.height, ih, hone]
    omega

theorem height_chainDecl (count : Nat) :
    ∃ body ∈ (chainDecl count).body, body.height = count + 3 := by
  refine ⟨_, rfl, ?_⟩
  have hheight := height_chainExpr count
  simp [Stmt.height, Stmt.heightOfAll, hheight]

/-- A chain of 1200 operators is accepted, and its tree is as high as the chain is long.  A source
with one negation too many is refused. -/
theorem height_limited_chain_negation :
    (∃ module, (Module.parse "m" (chainText 1200)).1 = .ok module ∧
      ∃ decl ∈ module.decls, ∃ body ∈ decl.body, body.height = 1203 ∧
        body.longestSpine ≤ body.height ∧
        body.height ≤ 2 * maxNesting + 1 + (4 * maxNesting + 4) * (body.longestSpine + 1)) ∧
    (Module.parse "m" (negationModule maxNesting).source).1 =
      .error (.nestingTooDeep maxNesting) := by
  constructor
  · obtain ⟨body, hbody, hheight⟩ := height_chainDecl 1200
    have hparse := parse_chain "m" 1200
    have hmem : chainDecl 1200 ∈ (Module.mk "m" [chainDecl 1200]).decls := List.mem_singleton_self _
    exact ⟨_, hparse, _, hmem, body, hbody, hheight,
      (height_limited_by_spine "m" (chainText 1200)).1 _ hparse _ hmem body hbody⟩
  · have hcanonical : (negationModule maxNesting).isCanonical = true := by decide +kernel
    have hdeep : maxNesting < (negationModule maxNesting).nesting := by decide +kernel
    exact (height_limited_by_spine "m" _).2 _ _ (declarations_of_source hcanonical) hdeep

/-- No height is enough for every accepted program. -/
theorem heights_unbounded :
    ¬∃ limit, ∀ name source module, (Module.parse name source).1 = .ok module →
      ∀ decl ∈ module.decls, ∀ body ∈ decl.body, body.height ≤ limit := by
  rintro ⟨limit, hlimit⟩
  obtain ⟨body, hbody, hheight⟩ := height_chainDecl limit
  have hle := hlimit "m" _ _ (parse_chain "m" limit) _ (List.mem_singleton_self _) body hbody
  omega

end Module

end Frontend
