import Frontend.Proofs.Descent.Expr

/-!
# The routines of statements and declarations

Statements of a block, and a choice after `else`, are one level further down.  With the
routines of expressions this gives all routines, and `routines_end` collects what is known of
their runs.
-/

namespace Frontend.Descent

open Frontend.Parser

variable {levels : Nat}

/-! ## Statements -/

theorem matches_assignOrCall (levels : Nat) :
    Matches levels assignOrCall (Parser.assignOrCall levels) := by
  have hexpr := matches_expr (matches_primary levels)
  have harguments := matches_arguments (matches_nestedExpr levels)
  refine (Matches.lift (Local.expect _ _)).bind fun name => ?_
  refine Matches.current_bind fun token => Matches.ite ?_ ?_
  · exact (Matches.lift Local.advance.discard).bind fun _ => hexpr.bind fun value => .pure _
  · refine Matches.current_bind fun token => Matches.ite ?_ (.unexpected _)
    exact (Matches.lift Local.advance.discard).bind fun _ => harguments.bind fun args => .pure _

theorem matches_ret (levels : Nat) : Matches levels ret (Parser.ret levels) := by
  refine (Matches.lift (Local.expect _ _).discard).bind fun _ => ?_
  exact (matches_expr (matches_primary levels)).bind fun value => .pure _

/-- A statement that begins with `if` is a choice. -/
theorem outcome_innerStmt_of_kwIf (levels : Nat) {state : State}
    (hkind : state.current.kind = .kwIf) :
    (innerStmt levels).outcome state = (Parser.nested Parser.ifElse levels).outcome state := by
  cases levels with
  | zero => rfl
  | succ below =>
    obtain ⟨⟨kind, text⟩, unread, log⟩ := state
    obtain rfl : kind = .kwIf := hkind
    rfl

section Nested

variable (hstmt : Matches levels (fun calls => nested (stmt calls)) (innerStmt levels))
include hstmt

theorem matches_item :
    Matches levels (fun calls => item (stmt calls)) (itemOver (innerStmt levels)) := by
  refine Matches.current_bind fun token => Matches.ite (.pure none) ?_
  have hitem : Matches levels (fun calls => do return some (← nested (stmt calls)))
      (do return some (← innerStmt levels)) :=
    hstmt.bind fun stmt => .pure (some stmt)
  refine Matches.current_bind fun token => Matches.ite ?_ hitem
  exact (Matches.unexpected _).bind fun _ => hitem

theorem matches_block_of_nested : Matches levels block (Parser.block levels) := by
  have hitems := Matches.collect (ensures_itemOver (derives_innerStmt levels 0))
    (matches_item hstmt)
  refine Matches.of_succ (fun calls => by rw [block]) ?_
  refine (Matches.lift (Local.expectMisc _).discard).bind fun _ => hitems.bind fun stmts => ?_
  exact (Matches.lift Local.advance.discard).bind fun _ => .pure _

theorem matches_ifElse_of_nested
    (hifElse : Matches levels (fun calls => nested (ifElse calls))
      (Parser.nested Parser.ifElse levels)) :
    Matches levels ifElse (Parser.ifElse levels) := by
  have hblock := matches_block_of_nested hstmt
  refine Matches.of_succ (fun calls => by rw [ifElse]) ?_
  refine (Matches.lift (Local.expect _ _).discard).bind fun _ => ?_
  refine (matches_expr (matches_primary levels)).bind fun condition => ?_
  refine hblock.bind fun thenBranch => ?_
  refine (Matches.lift (Local.expect _ _).discard).bind fun _ => ?_
  intro machine hvalid hdepth
  refine MatchesAt.current_bind ?_
  dsimp only
  split
  · rename_i hkind
    have hchoice := MatchesAt.congr (outcome_innerStmt_of_kwIf levels hkind)
      (hifElse machine hvalid hdepth)
    exact hchoice.bind fun elseBranch last _ hlast => .pure _ hlast.follows.valid
  · exact (hblock machine hvalid hdepth).bind fun elseBranch last _ hlast =>
      .pure _ hlast.follows.valid

theorem matches_stmt_of_nested
    (hifElse : Matches levels (fun calls => nested (ifElse calls))
      (Parser.nested Parser.ifElse levels)) :
    Matches levels stmt (Parser.stmt levels) := by
  refine Matches.of_succ (fun calls => by rw [stmt]) ?_
  refine Matches.current_bind fun token => ?_
  cases token.kind with
  | kwLet => exact Matches.lift local_letVar
  | identifier => exact matches_assignOrCall levels
  | kwIf => exact matches_ifElse_of_nested hstmt hifElse
  | kwReturn => exact matches_ret levels
  | misc => exact Matches.ite (matches_block_of_nested hstmt) (.unexpected _)
  | _ => exact .unexpected _

end Nested

/-- The induction is on the levels that are left. -/
theorem matches_stmt_ifElse (levels : Nat) :
    Matches levels stmt (Parser.stmt levels) ∧ Matches levels ifElse (Parser.ifElse levels) := by
  induction levels using Nat.strongRecOn with
  | ind levels ih =>
    have hstmt : Matches levels (fun calls => nested (stmt calls)) (innerStmt levels) := by
      rw [innerStmt_eq_nested]
      exact Matches.nested fun below hbelow => (ih below hbelow).1
    have hifElse : Matches levels (fun calls => nested (ifElse calls))
        (Parser.nested Parser.ifElse levels) :=
      Matches.nested fun below hbelow => (ih below hbelow).2
    exact ⟨matches_stmt_of_nested hstmt hifElse, matches_ifElse_of_nested hstmt hifElse⟩

theorem matches_block (levels : Nat) : Matches levels block (Parser.block levels) := by
  apply matches_block_of_nested
  rw [innerStmt_eq_nested]
  exact Matches.nested fun below _ => (matches_stmt_ifElse below).1

/-! ## Declarations -/

theorem matches_params (levels : Nat) : Matches levels params Parser.params := by
  refine Matches.current_bind fun token => Matches.ite (.pure []) ?_
  refine (Matches.lift local_param).bind fun first => ?_
  exact Matches.gather ensures_moreParam (Matches.lift local_moreParam) [first]

theorem matches_proto (levels : Nat) : Matches levels proto Parser.proto := by
  refine (Matches.lift (Local.expect _ _)).bind fun name => ?_
  refine (Matches.lift (Local.expectMisc _).discard).bind fun _ => ?_
  refine (matches_params levels).bind fun params => ?_
  refine (Matches.lift (Local.expectMisc _).discard).bind fun _ => ?_
  refine (Matches.lift (Local.expectMisc _).discard).bind fun _ => ?_
  exact (Matches.lift (Local.expect _ _)).bind fun returnType => .pure _

theorem matches_definition (levels : Nat) :
    Matches levels definition (Parser.definition levels) := by
  refine (Matches.lift (Local.expect _ _).discard).bind fun _ => ?_
  exact (matches_proto levels).bind fun proto => (matches_block levels).bind fun body => .pure _

theorem matches_externDecl (levels : Nat) : Matches levels externDecl Parser.externDecl := by
  refine (Matches.lift (Local.expect _ _).discard).bind fun _ => ?_
  exact (matches_proto levels).bind fun proto => .pure _

theorem matches_decl? (levels : Nat) : Matches levels decl? (Parser.decl? levels) := by
  have hrecord (decl : Decl) : Matches levels (fun _ => do
      lift (record (.parsed decl.name decl.isExtern))
      return some decl) (do
      record (.parsed decl.name decl.isExtern)
      return some decl) :=
    (Matches.lift (Local.record _)).bind fun _ => .pure _
  refine Matches.current_bind fun token => ?_
  dsimp only
  cases token.kind with
  | eof => exact .pure none
  | kwDef => exact (matches_definition levels).bind hrecord
  | kwExtern => exact (matches_externDecl levels).bind hrecord
  | _ => exact (Matches.unexpected _).bind hrecord

theorem matches_decls (levels : Nat) : Matches levels decls (Parser.decls levels) :=
  Matches.collect (ensures_decl? levels) (matches_decl? levels)

/-! ## All routines -/

/-- From every state of a source and from every depth that is allowed, the routine ends with the
answer or the error of the parser.  It is then as deep as before and never was deeper than
allowed, and the tokens that remain are the last ones of those that there were. -/
def Ends {α : Type} (routine : Nat → Descent α) (parser : Nat → Parser α) : Prop :=
  ∀ (state : State) (depth : Nat), state.Valid → depth ≤ maxNesting →
    ∃ answer last, Settles (fun calls => routine calls ⟨state, depth, depth⟩) (answer, last) ∧
      (parser (maxNesting - depth)).outcome state = (answer, last.state) ∧
      last.depth = depth ∧ last.deepest ≤ maxNesting ∧
      last.state.Valid ∧ last.state.pending <:+ state.pending

theorem Ends.of_matches {α : Type} {routine : Nat → Descent α} {parser : Nat → Parser α}
    (hmatches : ∀ levels, Matches levels routine (parser levels)) : Ends routine parser := by
  intro state depth hvalid hdepth
  obtain ⟨answer, last, hrun, houtcome, hreturned⟩ :=
    hmatches (maxNesting - depth) ⟨state, depth, depth⟩ hvalid (Nat.add_sub_of_le hdepth)
  exact ⟨answer, last, hrun, houtcome, hreturned.depth_eq, hreturned.deepest_le hdepth,
    hreturned.follows.valid, hreturned.follows.suffix⟩

theorem ends_chain (least : Int32) (lhs : Expr) :
    Ends (fun calls => chain calls least lhs)
      (fun levels => Parser.chain levels least.toInt lhs) :=
  .of_matches fun levels => matches_chain (matches_primary levels) least lhs

/-- A chain that is grouped while it is read ends with the only tree of its row in which every
operator binds at most as tightly as those on its left and looser than those on its right.  The row
goes up to the first token that is no operator of at least the given precedence. -/
theorem chain_ok_iff_ordered {least : Int32} (hleast : 0 ≤ least) {lhs result : Expr}
    {state final : State} {depth : Nat} (hvalid : state.Valid) (hdepth : depth ≤ maxNesting) :
    (∃ last : Machine, last.state = final ∧
        Settles (fun calls => chain calls least lhs ⟨state, depth, depth⟩) (.ok result, last)) ↔
      ∃ links tree, Run (Parser.primary (maxNesting - depth))
          (fun token => least.toInt ≤ token.precedence) state links final ∧
        (∀ other : OpTree, other.Spans lhs links ∧ other.Ordered ↔ other = tree) ∧
        result = tree.toExpr := by
  obtain ⟨answer, last, hrun, houtcome, -⟩ := ends_chain least lhs state depth hvalid hdepth
  rw [← chain_eq_ok_iff_ordered (Int32.le_iff_toInt_le.1 hleast), ← outcome_eq_ok_iff, houtcome,
    Prod.mk.injEq]
  constructor
  · rintro ⟨last', rfl, hrun'⟩
    obtain ⟨rfl, rfl⟩ := Prod.mk.inj (hrun.unique hrun')
    exact ⟨rfl, rfl⟩
  · rintro ⟨rfl, rfl⟩
    exact ⟨last, rfl, hrun⟩

/-- With a negative least precedence a chain ends with an error. -/
theorem chain_error_of_neg {least : Int32} (hleast : least < 0) (lhs : Expr) {state : State}
    {depth : Nat} (hvalid : state.Valid) (hdepth : depth ≤ maxNesting) :
    ∃ error last,
      Settles (fun calls => chain calls least lhs ⟨state, depth, depth⟩) (.error error, last) := by
  obtain ⟨answer, last, hrun, houtcome, -⟩ := ends_chain least lhs state depth hvalid hdepth
  obtain ⟨error, hfails⟩ := chain_fails_of_neg (Int32.lt_iff_toInt_lt.1 hleast) lhs hvalid
  rw [houtcome] at hfails
  exact ⟨error, last, hfails ▸ hrun⟩

/-- All routines end: those of literals and expressions, of statements, and of declarations.  The
precedences that they compute with are in range, and a chain with a negative least precedence ends
with an error. -/
theorem routines_end :
    (Ends (fun _ => lift intLiteral) (fun _ => intLiteral) ∧
      Ends (fun _ => lift floatLiteral) (fun _ => floatLiteral) ∧
      Ends (fun _ => lift boolLiteral) (fun _ => boolLiteral) ∧
      Ends expr Parser.expr ∧ Ends parenthesized Parser.parenthesized ∧
      Ends primary Parser.primary ∧ Ends unary Parser.unary ∧
      (∀ (least : Int32) (lhs : Expr),
        Ends (fun calls => chain calls least lhs)
          (fun levels => Parser.chain levels least.toInt lhs)) ∧
      Ends arguments Parser.arguments ∧ Ends identifierOrCall Parser.identifierOrCall) ∧
    (Ends stmt Parser.stmt ∧ Ends (fun _ => lift letVar) (fun _ => letVar) ∧
      Ends assignOrCall Parser.assignOrCall ∧ Ends ifElse Parser.ifElse ∧
      Ends ret Parser.ret ∧ Ends block Parser.block) ∧
    (Ends proto (fun _ => Parser.proto) ∧ Ends definition Parser.definition ∧
      Ends externDecl (fun _ => Parser.externDecl) ∧ Ends decls Parser.decls) ∧
    (∀ token : Token, (precedence token).toInt = token.precedence ∧
      (precedence token + 1).toInt = (precedence token).toInt + 1) ∧
    ∀ (least : Int32) (lhs : Expr) (state : State) (depth : Nat), least < 0 → state.Valid →
      depth ≤ maxNesting →
      ∃ error last, Settles (fun calls => chain calls least lhs ⟨state, depth, depth⟩)
        (.error error, last) := by
  refine ⟨⟨?_, ?_, ?_, ?_, ?_, ?_, ?_, ends_chain, ?_, ?_⟩, ⟨?_, ?_, ?_, ?_, ?_, ?_⟩,
    ⟨?_, ?_, ?_, ?_⟩, fun token => ⟨toInt_precedence token, ?_⟩,
    fun least lhs state depth hleast => chain_error_of_neg hleast lhs⟩
  · exact .of_matches fun levels => .lift local_intLiteral
  · exact .of_matches fun levels => .lift local_floatLiteral
  · exact .of_matches fun levels => .lift local_boolLiteral
  · exact .of_matches fun levels => matches_expr (matches_primary levels)
  · exact .of_matches fun levels => matches_parenthesized (matches_nestedExpr levels)
  · exact .of_matches matches_primary
  · exact .of_matches fun levels => matches_unary (matches_nestedPrimary levels)
  · exact .of_matches fun levels => matches_arguments (matches_nestedExpr levels)
  · exact .of_matches fun levels => matches_identifierOrCall (matches_nestedExpr levels)
  · exact .of_matches fun levels => (matches_stmt_ifElse levels).1
  · exact .of_matches fun levels => .lift local_letVar
  · exact .of_matches matches_assignOrCall
  · exact .of_matches fun levels => (matches_stmt_ifElse levels).2
  · exact .of_matches matches_ret
  · exact .of_matches matches_block
  · exact .of_matches matches_proto
  · exact .of_matches matches_definition
  · exact .of_matches matches_externDecl
  · exact .of_matches matches_decls
  · rw [toInt_precedence_add_one, toInt_precedence]

/-- With two levels left, the third parenthesis is too deep, and the routine is back where it was.
A chain that takes every token for an operator fails. -/
theorem expr_too_deep_returns :
    (∃ last, Settles (fun calls => expr calls ⟨.ofSource "(((1", 254, 254⟩)
        (.error (.nestingTooDeep 256), last) ∧
      last.depth = 254 ∧ last.deepest ≤ 256 ∧ last.state.pending.length = 1) ∧
    ∃ error last,
      Settles (fun calls => chain calls (-1) (.bool true none) ⟨.ofSource "1 2 , 3", 0, 0⟩)
        (.error error, last) := by
  constructor
  · obtain ⟨answer, last, hrun, houtcome, hdepth, hdeepest, -⟩ :=
      routines_end.1.2.2.2.1 (.ofSource "(((1") 254 (State.valid_ofSource _) (by decide)
    have hfails : ((Parser.expr (maxNesting - 254)).outcome (.ofSource "(((1")).1 =
        .error (.nestingTooDeep 256) :=
      rfl
    have hpending :
        ((Parser.expr (maxNesting - 254)).outcome (.ofSource "(((1")).2.pending.length = 1 := by
      decide +kernel
    rw [houtcome] at hfails hpending
    exact ⟨last, hfails ▸ hrun, hdepth, hdeepest, hpending⟩
  · exact routines_end.2.2.2.2 (-1) (.bool true none) (.ofSource "1 2 , 3") 0 (by decide)
      (State.valid_ofSource _) (by decide)

end Frontend.Descent
