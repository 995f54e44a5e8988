import Frontend.Proofs.Deriving.Module
import Frontend.Proofs.Lookahead.Basic

/-!
# The parsers look one token ahead

Each parser is local if the parser one level further down is.  A repetition is local if its
rounds pass over tokens, which is what the contracts of the steps say; hence the parsers
that are given come with a contract as well.

`LooksOneAhead` is what this means for a parser on a source: the answer, the error and the
place where it ends depend on the tokens up to that place and on nothing behind it.
-/

namespace Frontend.Parser

open Grammar

/-! ## Literals -/

theorem local_intLiteral : Local intLiteral :=
  (Local.expect _ _).bind fun _ => Local.ite (Local.pure _) (Local.throw _)

theorem local_floatLiteral : Local floatLiteral := by
  refine (Local.expect _ _).bind fun token => ?_
  split
  · exact Local.pure _
  · exact Local.throw _

theorem local_boolLiteral : Local boolLiteral :=
  (Local.expect _ _).bind fun _ =>
    Local.ite (Local.pure _) (Local.ite (Local.pure _) (Local.throw _))

/-! ## Expressions -/

section Expressions

variable {inner : Parser Expr} {depth bound : Nat}

theorem local_linkOver (hinner : Local inner) (least : Int) : Local (linkOver inner least) := by
  refine Local.current_bind fun token => Local.ite (Local.pure _) ?_
  exact Local.advance.bind fun operator => hinner.bind fun operand => Local.pure _

theorem local_exprOver (hinner : Local inner) (hderives : Derives inner (Primary depth) bound) :
    Local (exprOver inner) := by
  refine hinner.bind fun first => ?_
  have hlinks := Local.collect (ensures_linkOver hderives) (local_linkOver hinner 0)
  exact hlinks.bind fun links => Local.pure _

theorem local_parenthesizedOver (hexpr : Local (exprOver inner)) :
    Local (parenthesizedOver inner) :=
  (Local.expectMisc _).discard.bind fun _ => hexpr.bind fun _ =>
    (Local.expectMisc _).discard.bind fun _ => Local.pure _

theorem local_unaryOver (hinner : Local inner) : Local (unaryOver inner) :=
  (Local.expect _ _).bind fun _ => hinner.bind fun _ => Local.pure _

theorem local_moreArgOver (hexpr : Local (exprOver inner)) : Local (moreArgOver inner) := by
  refine Local.current_bind fun token => Local.ite (Local.pure _) ?_
  have harg : Local (do
      Functor.discard Parser.advance
      return some (← exprOver inner)) :=
    Local.advance.discard.bind fun _ => hexpr.bind fun _ => Local.pure _
  refine Local.current_bind fun token => Local.ite ?_ harg
  exact (Local.unexpected _).bind fun _ => harg

theorem local_argumentsOver (hinner : Local inner)
    (hderives : Derives inner (Primary (depth + 1)) bound) : Local (argumentsOver inner) := by
  have hexpr := local_exprOver hinner hderives
  refine Local.current_bind fun token => ?_
  have hclose (args : List Expr) : Local (do
      discard <| expectMisc ")"
      return args) :=
    (Local.expectMisc _).discard.bind fun _ => Local.pure _
  dsimp only
  split
  · exact (Local.pure _).bind hclose
  · refine hexpr.bind fun first => ?_
    have hmore := Local.collect (ensures_moreArgOver (derives_exprOver hderives))
      (local_moreArgOver hexpr)
    exact hmore.bind fun others => (Local.pure _).bind hclose

theorem local_identifierOrCallOver (harguments : Local (argumentsOver inner)) :
    Local (identifierOrCallOver inner) := by
  refine (Local.expect _ _).bind fun name => Local.current_bind fun token => ?_
  refine Local.ite ?_ (Local.pure _)
  exact Local.advance.discard.bind fun _ => harguments.bind fun args => Local.pure _

theorem local_primaryOver (hinner : Local inner)
    (hderives : Derives inner (Primary (depth + 1)) bound) : Local (primaryOver inner) := by
  have hexpr := local_exprOver hinner hderives
  refine Local.current_bind fun token => ?_
  split
  · exact local_identifierOrCallOver (local_argumentsOver hinner hderives)
  · exact local_intLiteral.bind fun value => Local.pure _
  · exact local_floatLiteral.bind fun value => Local.pure _
  · exact local_boolLiteral.bind fun value => Local.pure _
  · exact Local.ite (local_parenthesizedOver hexpr) (Local.unexpected _)
  · exact Local.ite (local_unaryOver hinner) (Local.unexpected _)
  · exact Local.unexpected _

end Expressions

theorem local_innerPrimary (levels : Nat) : Local (innerPrimary levels) := by
  induction levels with
  | zero => exact Local.throw _
  | succ levels ih => exact local_primaryOver ih (derives_innerPrimary levels 0)

theorem local_primary (levels : Nat) : Local (primary levels) :=
  local_primaryOver (local_innerPrimary levels) (derives_innerPrimary levels 0)

theorem local_expr (levels : Nat) : Local (expr levels) :=
  local_exprOver (local_primary levels) (derives_primary levels 0)

theorem local_arguments (levels : Nat) : Local (arguments levels) :=
  local_argumentsOver (local_innerPrimary levels) (derives_innerPrimary levels 0)

/-! ## Statements -/

theorem local_letVar : Local letVar :=
  (Local.expect _ _).discard.bind fun _ => (Local.expect _ _).bind fun _ =>
    (Local.expectMisc _).discard.bind fun _ => (Local.expect _ _).bind fun _ => Local.pure _

theorem local_assignOrCall (levels : Nat) : Local (assignOrCall levels) := by
  refine (Local.expect _ _).bind fun name => Local.current_bind fun token => Local.ite ?_ ?_
  · exact Local.advance.discard.bind fun _ => (local_expr levels).bind fun value => Local.pure _
  · refine Local.current_bind fun token => Local.ite ?_ (Local.unexpected _)
    exact Local.advance.discard.bind fun _ =>
      (local_arguments levels).bind fun args => Local.pure _

theorem local_ret (levels : Nat) : Local (ret levels) :=
  (Local.expect _ _).discard.bind fun _ => (local_expr levels).bind fun _ => Local.pure _

section Statements

variable {inner : Parser Stmt} {depth bound : Nat}

theorem local_itemOver (hinner : Local inner) : Local (itemOver inner) := by
  refine Local.current_bind fun token => Local.ite (Local.pure _) ?_
  have hitem : Local (do return some (← inner)) := hinner.bind fun stmt => Local.pure _
  refine Local.current_bind fun token => Local.ite ?_ hitem
  exact (Local.unexpected _).bind fun _ => hitem

theorem local_blockOver (hinner : Local inner)
    (hderives : Derives inner (Statement (depth + 1)) bound) : Local (blockOver inner) := by
  have hstmts := Local.collect (ensures_itemOver hderives) (local_itemOver hinner)
  refine (Local.expectMisc _).discard.bind fun _ => hstmts.bind fun stmts => ?_
  exact Local.advance.discard.bind fun _ => Local.pure _

theorem local_ifElseOver (levels : Nat) (hinner : Local inner) (hblock : Local (blockOver inner)) :
    Local (ifElseOver levels inner) := by
  refine (Local.expect _ _).discard.bind fun _ => (local_expr levels).bind fun condition => ?_
  refine hblock.bind fun thenBranch => (Local.expect _ _).discard.bind fun _ => ?_
  refine Local.current_bind fun token => ?_
  dsimp only
  split
  · exact hinner.bind fun elseBranch => Local.pure _
  · exact hblock.bind fun elseBranch => Local.pure _

theorem local_stmtOver (levels : Nat) (hinner : Local inner)
    (hderives : Derives inner (Statement (depth + 1)) bound) : Local (stmtOver levels inner) := by
  have hblock := local_blockOver hinner hderives
  refine Local.current_bind fun token => ?_
  split
  · exact local_letVar
  · exact local_assignOrCall levels
  · exact local_ifElseOver levels hinner hblock
  · exact local_ret levels
  · exact Local.ite hblock (Local.unexpected _)
  · exact Local.unexpected _

end Statements

theorem local_innerStmt (levels : Nat) : Local (innerStmt levels) := by
  induction levels with
  | zero => exact Local.throw _
  | succ levels ih => exact local_stmtOver levels ih (derives_innerStmt levels 0)

theorem local_stmt (levels : Nat) : Local (stmt levels) :=
  local_stmtOver levels (local_innerStmt levels) (derives_innerStmt levels 0)

theorem local_block (levels : Nat) : Local (block levels) :=
  local_blockOver (local_innerStmt levels) (derives_innerStmt levels 0)

theorem local_ifElse (levels : Nat) : Local (ifElse levels) :=
  local_ifElseOver levels (local_innerStmt levels) (local_block levels)

/-! ## Declarations -/

theorem local_param : Local param :=
  (Local.expect _ _).bind fun _ => (Local.expectMisc _).discard.bind fun _ =>
    (Local.expect _ _).bind fun _ => Local.pure _

theorem local_moreParam : Local moreParam := by
  refine Local.current_bind fun token => Local.ite ?_ (Local.pure _)
  exact Local.advance.discard.bind fun _ => local_param.bind fun param => Local.pure _

theorem local_params : Local params := by
  have hmore := Local.collect ensures_moreParam local_moreParam
  refine Local.current_bind fun token => Local.ite (Local.pure _) ?_
  exact local_param.bind fun first => hmore.bind fun others => Local.pure _

theorem local_proto : Local proto := by
  refine (Local.expect _ _).bind fun name => (Local.expectMisc _).discard.bind fun _ => ?_
  refine local_params.bind fun params => (Local.expectMisc _).discard.bind fun _ => ?_
  exact (Local.expectMisc _).discard.bind fun _ => (Local.expect _ _).bind fun type => Local.pure _

theorem local_definition (levels : Nat) : Local (definition levels) :=
  (Local.expect _ _).discard.bind fun _ => local_proto.bind fun _ =>
    (local_block levels).bind fun _ => Local.pure _

theorem local_externDecl : Local externDecl :=
  (Local.expect _ _).discard.bind fun _ => local_proto.bind fun _ => Local.pure _

theorem local_decl? (levels : Nat) : Local (decl? levels) := by
  have hrecord (decl : Decl) : Local (do
      record (.parsed decl.name decl.isExtern)
      return some decl) :=
    (Local.record _).bind fun _ => Local.pure _
  refine Local.current_bind fun token => ?_
  dsimp only
  split
  · exact Local.pure _
  · exact (local_definition levels).bind hrecord
  · exact local_externDecl.bind hrecord
  · exact (Local.unexpected _).bind hrecord

theorem local_decls (levels : Nat) : Local (decls levels) :=
  Local.collect (ensures_decl? levels) (local_decl? levels)

/-! ## Sources -/

/-- The index of the current token among the tokens of the source: those that are not pending come
before it. -/
def State.index (source : String) (state : State) : Nat :=
  (Token.tokenize source).length - 1 - state.pending.length

theorem State.index_eq {source : String} {state : State} {used : List Token}
    (hused : (State.ofSource source).pending = used ++ state.pending) :
    state.index source = used.length := by
  rw [State.index, State.tokenize_eq_pending, hused]
  simp only [List.length_append, List.length_singleton]
  omega

/-- The parser ends on a token of the source.  On every source with the same tokens up to this one
it gives the same answer or error, and ends on the token with the same index. -/
def LooksOneAhead {α : Type} (parser : Parser α) : Prop :=
  ∀ source : String,
    let ended := (parser.parse source).2
    let index := ended.index source
    (Token.tokenize source)[index]? = some ended.current ∧
    ∀ other : String,
      (Token.tokenize other).take (index + 1) = (Token.tokenize source).take (index + 1) →
      (parser.parse other).1 = (parser.parse source).1 ∧
      (parser.parse other).2.index other = index

/-- A list of tokens that begins as another one, one token further than it was passed over. -/
theorem exists_rest_of_take {tokens used : List Token} {token : Token}
    (htake : (tokens ++ [Token.eof]).take (used.length + 1) = used ++ [token]) :
    ∃ rest, tokens = used ++ rest ∧ rest.headD .eof = token := by
  induction used generalizing tokens with
  | nil =>
    refine ⟨tokens, rfl, ?_⟩
    cases tokens with
    | nil => simpa using htake
    | cons first tokens => simpa using htake
  | cons first used ih =>
    cases tokens with
    | nil => simp at htake
    | cons first' tokens =>
      simp only [List.length_cons, List.cons_append, List.take_succ_cons, List.cons.injEq] at htake
      obtain ⟨rfl, htake⟩ := htake
      obtain ⟨rest, rfl, hrest⟩ := ih htake
      exact ⟨rest, rfl, hrest⟩

theorem take_succ_append (used pending : List Token) :
    (used ++ (pending ++ [Token.eof])).take (used.length + 1) = used ++ [pending.headD .eof] := by
  rw [List.take_length_add_append]
  cases pending <;> rfl

/-- Two sources, of which the second shows the tokens that the run on the first one passes over,
and then the token on which it ends. -/
theorem Local.repeats_parse {α : Type} {parser : Parser α} (hlocal : Local parser)
    {source other : String} {used rest : List Token}
    (hused : (State.ofSource source).pending = used ++ (parser.parse source).2.pending)
    (hother : (State.ofSource other).pending = used ++ rest)
    (hcurrent : rest.headD .eof = (parser.parse source).2.current) :
    Repeats (parser.parse source) (parser.parse other) rest := by
  have hat := hlocal _ (State.valid_ofSource source)
  refine hat.repeats used rest _ (State.valid_ofSource other) ?_ hused hother hcurrent
  -- The first token of a source is recorded, and it is the same in both.
  have hhead : rest.headD .eof = (parser.parse source).2.pending.headD .eof :=
    hcurrent.trans hat.follows.valid.current_eq
  have hfirst : (State.ofSource other).current = (State.ofSource source).current := by
    rw [(State.valid_ofSource other).current_eq, (State.valid_ofSource source).current_eq, hother,
      hused, headD_append_congr used hhead]
  show #[Event.lexed (State.ofSource other).current] = #[Event.lexed (State.ofSource source).current]
  rw [hfirst]

theorem Local.looksOneAhead {α : Type} {parser : Parser α} (hlocal : Local parser) :
    LooksOneAhead parser := by
  intro source ended index
  have hfollows : ended.Follows (State.ofSource source) :=
    (hlocal _ (State.valid_ofSource source)).follows
  obtain ⟨used, hused⟩ := hfollows.suffix
  have htokens : Token.tokenize source = used ++ (ended.pending ++ [.eof]) := by
    rw [State.tokenize_eq_pending, ← hused, List.append_assoc]
  have hindex : index = used.length := State.index_eq hused.symm
  have htake : (Token.tokenize source).take (index + 1) = used ++ [ended.current] := by
    rw [hindex, htokens, take_succ_append, hfollows.valid.current_eq]
  constructor
  · rw [hindex, htokens, List.getElem?_append_right (Nat.le_refl _), Nat.sub_self,
      hfollows.valid.current_eq]
    cases ended.pending <;> rfl
  · intro other hagree
    rw [htake, hindex, State.tokenize_eq_pending] at hagree
    obtain ⟨rest, hrest, hcurrent⟩ := exists_rest_of_take hagree
    have hrepeats := hlocal.repeats_parse hused.symm hrest hcurrent
    refine ⟨hrepeats.answer, ?_⟩
    rw [hindex]
    exact State.index_eq (hrepeats.pending.symm ▸ hrest)

/-- The parsers of expressions, statements and declarations look at no token behind the one on which
they end, be it with an answer or with an error. -/
theorem parsers_look_one_ahead (levels : Nat) :
    LooksOneAhead (expr levels) ∧ LooksOneAhead (primary levels) ∧
    LooksOneAhead (stmt levels) ∧ LooksOneAhead (ifElse levels) ∧
    LooksOneAhead (block levels) ∧ LooksOneAhead proto ∧
    LooksOneAhead (definition levels) ∧ LooksOneAhead externDecl ∧
    LooksOneAhead (decls levels) :=
  ⟨(local_expr levels).looksOneAhead, (local_primary levels).looksOneAhead,
    (local_stmt levels).looksOneAhead, (local_ifElse levels).looksOneAhead,
    (local_block levels).looksOneAhead, local_proto.looksOneAhead,
    (local_definition levels).looksOneAhead, local_externDecl.looksOneAhead,
    (local_decls levels).looksOneAhead⟩

theorem expr_error_whatever_follows :
    ((expr 8).parse "(1 2").2.index "(1 2" = 2 ∧
      (Token.tokenize "(1 2 + (").take 3 = (Token.tokenize "(1 2").take 3 ∧
      ((expr 8).parse "(1 2 + (").1 = ((expr 8).parse "(1 2").1 ∧
      ((expr 8).parse "(1 2 + (").2.index "(1 2 + (" = 2 := by
  have hindex : ((expr 8).parse "(1 2").2.index "(1 2" = 2 := by decide +kernel
  have hagree : (Token.tokenize "(1 2 + (").take 3 = (Token.tokenize "(1 2").take 3 := by
    decide +kernel
  have hsame := ((parsers_look_one_ahead 8).1 "(1 2").2 "(1 2 + (" (by rw [hindex]; exact hagree)
  exact ⟨hindex, hagree, hsame.1, hsame.2.trans hindex⟩

end Frontend.Parser
