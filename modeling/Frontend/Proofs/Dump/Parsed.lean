import Frontend.Proofs.Comparison
import Frontend.Proofs.Dump.Trees
import Frontend.Proofs.Image
import Frontend.Proofs.RoundTrip

/-!
# Dumps of parsed trees

Two parsed trees have the same dump exactly if they are equal.

* Plain trees have no tags, no signs and no NaNs, so for them the comparison of trees is equality
  (`Tree.equals_iff_eq`), and a plain tree can be told from its dump.
* Parsed trees are those that a parser answers and what stands in them.  All of them are plain
  (`Tree.Parsed.plain`).
-/

namespace Frontend

/-! ## Plain trees -/

namespace Tree

/-- The tree is canonical and has no tags. -/
def Plain : Tree → Prop
  | .ofExpr expr => expr.Plain
  | .ofStmt stmt => stmt.Plain
  | .ofDecl decl => decl.Plain
  | .ofModule module => ∀ decl ∈ module.decls, decl.Plain

theorem Plain.untagged {tree : Tree} (hplain : tree.Plain) : tree.untagged = tree := by
  cases tree with
  | ofExpr expr => exact congrArg ofExpr (Expr.Plain.untagged hplain)
  | ofStmt stmt => exact congrArg ofStmt (Stmt.Plain.untagged hplain)
  | ofDecl decl => exact congrArg ofDecl (Decl.Plain.untagged hplain)
  | ofModule module =>
    exact congrArg (fun decls => ofModule ⟨module.name, decls⟩) (Decl.plain_all_iff.1 hplain).1

theorem Plain.content {tree : Tree} (hplain : tree.Plain) : tree.content = tree.untagged := by
  cases tree with
  | ofExpr expr => exact congrArg ofExpr (expr.content_of_canonical hplain.canonical)
  | ofStmt stmt => exact congrArg ofStmt (stmt.content_of_canonical hplain.canonical)
  | ofDecl decl => exact congrArg ofDecl (Decl.content_of_canonical hplain.canonical)
  | ofModule module =>
    exact congrArg ofModule (Module.content_of_canonical (Decl.plain_all_iff.1 hplain).2)

theorem Plain.equals_untagged {tree : Tree} (hplain : tree.Plain) :
    tree.equals tree.untagged = true := by
  cases tree with
  | ofExpr expr => exact expr.equals_untagged hplain.canonical
  | ofStmt stmt => exact stmt.equals_untagged hplain.canonical
  | ofDecl decl => exact Decl.equals_untagged hplain.canonical
  | ofModule module => exact Module.equals_untagged (Decl.plain_all_iff.1 hplain).2

/-- Plain trees are equal to no trees but themselves. -/
theorem equals_iff_eq {tree other : Tree} (hplain : tree.Plain) (hother : other.Plain) :
    tree.equals other = true ↔ tree = other := by
  constructor
  · intro hequals
    have hcontent := ((equals_iff tree other).1 hequals).1
    rwa [hplain.content, hother.content, hplain.untagged, hother.untagged] at hcontent
  · intro htrees
    subst htrees
    have hequals := hplain.equals_untagged
    rwa [hplain.untagged] at hequals

/-- The trees are of one kind, and modules have one name. -/
inductive Alike : Tree → Tree → Prop
  | expr (expr other : Expr) : Alike (.ofExpr expr) (.ofExpr other)
  | stmt (stmt other : Stmt) : Alike (.ofStmt stmt) (.ofStmt other)
  | decl (decl other : Decl) : Alike (.ofDecl decl) (.ofDecl other)
  | module (name : String) (decls others : List Decl) :
      Alike (.ofModule ⟨name, decls⟩) (.ofModule ⟨name, others⟩)

/-- The dump of a tree. -/
def dump : Tree → String
  | .ofExpr expr => expr.dump
  | .ofStmt stmt => stmt.dump
  | .ofDecl decl => decl.dump
  | .ofModule module => module.dump

theorem dump_eq_iff {tree other : Tree} (halike : tree.Alike other) (hplain : tree.Plain)
    (hother : other.Plain) : tree.dump = other.dump ↔ tree.equals other = true := by
  rw [equals_iff_eq hplain hother]
  constructor
  · intro hdump
    cases halike with
    | expr expr other => exact congrArg ofExpr (Expr.dump_inj hplain hother hdump)
    | stmt stmt other => exact congrArg ofStmt (Stmt.dump_inj hplain hother hdump)
    | decl decl other => exact congrArg ofDecl (Decl.dump_inj hplain hother hdump)
    | module name decls others =>
      exact congrArg (fun decls => ofModule ⟨name, decls⟩)
        (Module.decls_eq_of_dump hplain hother hdump)
  · exact congrArg dump

end Tree

/-! ## Parsed trees -/

/-- The answer of a parser is derived by tokens that were cut from the source. -/
theorem Parser.Derives.of_parse {α : Type} {parser : Parser α} {rule : Nat → List Token → α → Prop}
    {bound : Nat} (hderives : Parser.Derives parser rule bound) {source : String} {a : α}
    (hparse : (parser.parse source).1 = .ok a) :
    ∃ top tokens, (∀ token ∈ tokens, token.Lexed) ∧ rule top tokens a := by
  have hvalid := State.valid_ofSource source
  have hrun := hderives _ _ hvalid rfl
  unfold Parser.parse at hparse
  cases heq : parser (State.ofSource source) with
  | error error state =>
    rw [heq] at hparse
    cases hparse
  | ok result state =>
    rw [heq] at hparse hrun
    cases hparse
    obtain ⟨-, top, used, hused, -, hrule⟩ := hrun
    refine ⟨top, used, fun token htoken => hvalid.lexed_of_mem ?_, hrule⟩
    rw [hused]
    exact List.mem_append_left _ htoken

namespace Expr

/-- The expressions right below the root. -/
def operands : Expr → List Expr
  | .int .. | .float .. | .bool .. | .var .. => []
  | .unary _ operand _ => [operand]
  | .binary _ lhs rhs _ => [lhs, rhs]
  | .call _ args _ => args

theorem plain_of_mem {exprs : List Expr} (hplain : PlainAll exprs) {expr : Expr}
    (hexpr : expr ∈ exprs) : expr.Plain := by
  induction exprs with
  | nil => cases hexpr
  | cons first exprs ih =>
    rw [plainAll_cons_iff] at hplain
    rcases List.mem_cons.1 hexpr with rfl | hexpr
    · exact hplain.1
    · exact ih hplain.2 hexpr

theorem plain_of_mem_operands {expr operand : Expr} (hplain : expr.Plain)
    (hoperand : operand ∈ expr.operands) : operand.Plain := by
  cases expr with
  | int _ _ | float _ _ | bool _ _ | var _ _ => cases hoperand
  | unary operator inner tag =>
    rw [List.mem_singleton.1 hoperand]
    exact (plain_unary_iff.1 hplain).2.2
  | binary operator lhs rhs tag =>
    obtain ⟨-, -, hlhs, hrhs⟩ := plain_binary_iff.1 hplain
    simp only [operands, List.mem_cons, List.not_mem_nil, or_false] at hoperand
    rcases hoperand with rfl | rfl
    · exact hlhs
    · exact hrhs
  | call callee args tag => exact plain_of_mem (plain_call_iff.1 hplain).2.2 hoperand

end Expr

theorem Stmt.plain_of_mem {stmts : List Stmt} (hplain : PlainAll stmts) {stmt : Stmt}
    (hstmt : stmt ∈ stmts) : stmt.Plain := by
  induction stmts with
  | nil => cases hstmt
  | cons first stmts ih =>
    rw [plainAll_cons_iff] at hplain
    rcases List.mem_cons.1 hstmt with rfl | hstmt
    · exact hplain.1
    · exact ih hplain.2 hstmt

namespace Tree

/-- The trees right below the root. -/
def parts : Tree → List Tree
  | .ofExpr expr => expr.operands.map ofExpr
  | .ofStmt (.letVar ..) => []
  | .ofStmt (.assign _ value) => [.ofExpr value]
  | .ofStmt (.ifElse condition thenBranch elseBranch) =>
    [.ofExpr condition, .ofStmt thenBranch, .ofStmt elseBranch]
  | .ofStmt (.ret value) => [.ofExpr value]
  | .ofStmt (.block stmts) => stmts.map ofStmt
  | .ofDecl decl => decl.body.toList.map ofStmt
  | .ofModule module => module.decls.map ofDecl

/-- The tree is what a parser answers for some source, or stands somewhere in such a tree. -/
inductive Parsed : Tree → Prop
  | expr {levels : Nat} {source : String} {expr : Expr}
      (hparse : ((Parser.expr levels).parse source).1 = .ok expr) : Parsed (.ofExpr expr)
  | stmt {levels : Nat} {source : String} {stmt : Stmt}
      (hparse : ((Parser.stmt levels).parse source).1 = .ok stmt) : Parsed (.ofStmt stmt)
  | definition {levels : Nat} {source : String} {decl : Decl}
      (hparse : ((Parser.definition levels).parse source).1 = .ok decl) : Parsed (.ofDecl decl)
  | externDecl {source : String} {decl : Decl}
      (hparse : (Parser.externDecl.parse source).1 = .ok decl) : Parsed (.ofDecl decl)
  | module {name source : String} {module : Module}
      (hparse : (Module.parse name source).1 = .ok module) : Parsed (.ofModule module)
  | part {tree part : Tree} (htree : tree.Parsed) (hpart : part ∈ tree.parts) : Parsed part

theorem Plain.of_mem_parts {tree part : Tree} (hplain : tree.Plain) (hpart : part ∈ tree.parts) :
    part.Plain := by
  cases tree with
  | ofExpr expr =>
    obtain ⟨operand, hoperand, rfl⟩ := List.mem_map.1 hpart
    exact Expr.plain_of_mem_operands hplain hoperand
  | ofStmt stmt =>
    cases stmt with
    | letVar name type => cases hpart
    | assign target value =>
      rw [List.mem_singleton.1 hpart]
      exact (Stmt.plain_assign_iff.1 hplain).2
    | ifElse condition thenBranch elseBranch =>
      obtain ⟨hcondition, ⟨-, hthen⟩, -, helse⟩ := Stmt.plain_ifElse_iff.1 hplain
      simp only [parts, List.mem_cons, List.not_mem_nil, or_false] at hpart
      rcases hpart with rfl | rfl | rfl
      · exact hcondition
      · exact hthen
      · exact helse
    | ret value =>
      rw [List.mem_singleton.1 hpart]
      exact Stmt.plain_ret_iff.1 hplain
    | block stmts =>
      obtain ⟨stmt, hstmt, rfl⟩ := List.mem_map.1 hpart
      exact Stmt.plain_of_mem (Stmt.plain_block_iff.1 hplain) hstmt
  | ofDecl decl =>
    obtain ⟨body, hbody, rfl⟩ := List.mem_map.1 hpart
    exact (hplain.body body (Option.mem_toList.1 hbody)).2
  | ofModule module =>
    obtain ⟨decl, hdecl, rfl⟩ := List.mem_map.1 hpart
    exact hplain decl hdecl

theorem Parsed.plain {tree : Tree} (hparsed : tree.Parsed) : tree.Plain := by
  induction hparsed with
  | expr hparse =>
    obtain ⟨top, tokens, hlexed, hexpr⟩ := (Parser.derives_expr _ 0).of_parse hparse
    exact Grammar.plain_of_expression hexpr hlexed
  | @stmt levels source stmt hparse =>
    have hderives := Parser.derives_stmtOver (Parser.derives_innerStmt levels 0)
    obtain ⟨top, tokens, hlexed, hstmt⟩ := hderives.of_parse hparse
    exact Grammar.plain_of_statement hstmt hlexed
  | definition hparse =>
    obtain ⟨top, tokens, hlexed, hdecl⟩ := (Parser.derives_definition _).of_parse hparse
    exact Grammar.plain_of_declaration hdecl hlexed
  | externDecl hparse =>
    obtain ⟨top, tokens, hlexed, hdecl⟩ := (Parser.derives_externDecl 0).of_parse hparse
    exact Grammar.plain_of_declaration hdecl hlexed
  | module hparse => exact (Module.plain_of_parse hparse).2
  | part _ hpart hplain => exact hplain.of_mem_parts hpart

/-- Parsed trees have the same dump exactly if they are equal.  Modules are compared with modules
of the same name, which a dump does not show. -/
theorem dump_identifies_parsed :
    (∀ {name source source' : String} {module other : Module},
      (Module.parse name source).1 = .ok module → (Module.parse name source').1 = .ok other →
      (module.dump = other.dump ↔ module.equals other = true)) ∧
    (∀ {decl other : Decl}, (ofDecl decl).Parsed → (ofDecl other).Parsed →
      (decl.dump = other.dump ↔ decl.equals other = true)) ∧
    (∀ {stmt other : Stmt}, (ofStmt stmt).Parsed → (ofStmt other).Parsed →
      (stmt.dump = other.dump ↔ stmt.equals other = true)) ∧
    (∀ {expr other : Expr}, (ofExpr expr).Parsed → (ofExpr other).Parsed →
      (expr.dump = other.dump ↔ expr.equals other = true)) := by
  refine ⟨?_, ?_, ?_, ?_⟩
  · intro name source source' module other hparse hparse'
    have halike : (ofModule module).Alike (ofModule other) := by
      obtain ⟨name, decls⟩ := module
      obtain ⟨name', others⟩ := other
      obtain ⟨rfl, -⟩ := Module.plain_of_parse hparse
      obtain ⟨rfl, -⟩ := Module.plain_of_parse hparse'
      exact .module _ decls others
    exact dump_eq_iff halike (Parsed.module hparse).plain (Parsed.module hparse').plain
  · intro decl other hparsed hparsed'
    exact dump_eq_iff (.decl decl other) hparsed.plain hparsed'.plain
  · intro stmt other hparsed hparsed'
    exact dump_eq_iff (.stmt stmt other) hparsed.plain hparsed'.plain
  · intro expr other hparsed hparsed'
    exact dump_eq_iff (.expr expr other) hparsed.plain hparsed'.plain

/-- A module with one function, which returns a value. -/
def returningModule (value : Expr) : Module :=
  ⟨"m", [⟨Module.chainProto, some (.block [.ret value])⟩]⟩

/-- The sum of three ones, grouped to the right. -/
def rightChain : Expr :=
  .binary "+" (.int 1 none) (Module.chainExpr 1) none

/-- A chain written without and with parentheses has one dump.  With another grouping the dumps are
different, those of the modules as well as those of the expressions in them. -/
theorem dump_of_groupings :
    let left := returningModule (Module.chainExpr 2)
    let right := returningModule rightChain
    (∃ chain parenthesized, (Module.parse "m" (Module.chainText 2)).1 = .ok chain ∧
      (Module.parse "m" left.source).1 = .ok parenthesized ∧
      chain.dump = parenthesized.dump) ∧
    (Module.parse "m" right.source).1 = .ok right ∧ left.dump ≠ right.dump ∧
    (Module.chainExpr 2).dump ≠ rightChain.dump := by
  intro left right
  have hchain : (Module.parse "m" (Module.chainText 2)).1 = .ok left := Module.parse_chain "m" 2
  have hleft : (Module.parse "m" left.source).1 = .ok left := Module.parse_source rfl
  have hright : (Module.parse "m" right.source).1 = .ok right := Module.parse_source rfl
  obtain ⟨hmodules, -, -, hexprs⟩ := dump_identifies_parsed
  have hvalue {value : Expr} (hparse : (Module.parse "m" (returningModule value).source).1 =
      .ok (returningModule value)) : (ofExpr value).Parsed := by
    have hdecl := Parsed.part (.module hparse) (List.mem_singleton.2 rfl)
    have hbody := Parsed.part hdecl (List.mem_singleton.2 rfl)
    have hstmt := Parsed.part hbody (List.mem_singleton.2 rfl)
    exact .part hstmt (List.mem_singleton.2 rfl)
  refine ⟨⟨left, left, hchain, hleft, (hmodules hchain hleft).2 rfl⟩, hright, ?_, ?_⟩
  · intro hdump
    exact absurd ((hmodules hleft hright).1 hdump) (by decide)
  · intro hdump
    exact absurd ((hexprs (hvalue hleft) (hvalue hright)).1 hdump) (by decide)

end Tree

end Frontend
