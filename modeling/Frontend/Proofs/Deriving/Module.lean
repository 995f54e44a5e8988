import Frontend.Decl.Parser
import Frontend.Proofs.Deriving.Expr

/-!
# What the parsers of statements, declarations and modules derive

As for expressions, each parser is taken with the contract of the parser of a statement
one level further down, and the recursion on the levels closes the circle.
`ensures_decls` is the result for a whole source.
-/

namespace Frontend.Parser

open Grammar

/-! ## Statements -/

theorem derives_letVar {depth bound : Nat} (hdepth : depth ≤ bound) :
    Derives letVar (Statement depth) bound := by
  intro tokens
  refine (Ensures.discard_expect (by decide) _ tokens).bind fun _ rest hpost => ?_
  obtain ⟨keyword, rfl, hkeyword⟩ := hpost
  refine (Ensures.expect (by decide) _ _).bind fun name rest hpost => ?_
  obtain ⟨rfl, hname⟩ := hpost
  refine (Ensures.discard (Ensures.expectMisc ":" _)).bind fun _ rest hrest => ?_
  subst hrest
  refine (Ensures.expect (by decide) _ _).bind fun type rest hpost => ?_
  obtain ⟨rfl, htype⟩ := hpost
  exact Ensures.pure ⟨depth, [keyword, name, punct ":", type], rfl, hdepth,
    .letVar hkeyword hname htype⟩

theorem derives_assignOrCall (levels depth : Nat) :
    Derives (assignOrCall levels) (Statement depth) (depth + levels) := by
  intro tokens
  refine (Ensures.expect (by decide) _ tokens).bind fun name rest hpost => ?_
  obtain ⟨rfl, hname⟩ := hpost
  refine Ensures.current_bind ?_
  split
  · rename_i hmisc
    obtain ⟨rest, rfl⟩ := exists_of_isMisc hmisc
    refine (Ensures.discard_advance _ _).bind fun _ rest' hrest => ?_
    subst hrest
    refine (derives_expr levels depth _).bind fun value rest hpost => ?_
    obtain ⟨top, used, rfl, htop, hvalue⟩ := hpost
    exact Ensures.pure ⟨top, name :: punct "=" :: used, rfl, htop, .assign hname hvalue⟩
  · refine Ensures.current_bind ?_
    split
    · rename_i hmisc
      obtain ⟨rest, rfl⟩ := exists_of_isMisc hmisc
      refine (Ensures.discard_advance _ _).bind fun _ rest' hrest => ?_
      subst hrest
      refine (derives_arguments levels depth _).bind fun args rest hpost => ?_
      obtain ⟨top, used, rfl, htop, hargs⟩ := hpost
      exact Ensures.pure ⟨top, name :: punct "(" :: used, rfl, htop, .call hname hargs⟩
    · exact Ensures.unexpected _

theorem derives_ret (levels depth : Nat) :
    Derives (ret levels) (Statement depth) (depth + levels) := by
  intro tokens
  refine (Ensures.discard_expect (by decide) _ tokens).bind fun _ rest hpost => ?_
  obtain ⟨keyword, rfl, hkeyword⟩ := hpost
  refine (derives_expr levels depth _).bind fun value rest hpost => ?_
  obtain ⟨top, used, rfl, htop, hvalue⟩ := hpost
  exact Ensures.pure ⟨top, keyword :: used, rfl, htop, .ret hkeyword hvalue⟩

/-- A statement that begins with `if` is a choice. -/
theorem choice_of_statement {depth top : Nat} {tokens rest : List Token} {stmt : Stmt}
    (hstmt : Statement depth top tokens stmt)
    (hif : ((tokens ++ rest).headD .eof).kind = .kwIf) : Choice depth top tokens stmt := by
  cases hstmt with
  | choice hchoice => exact hchoice
  | letVar hkind | assign hkind | call hkind | ret hkind => simp [hkind] at hif
  | block hblock =>
    cases hblock
    cases hif

section Blocks

variable {inner : Parser Stmt} {depth bound : Nat}

theorem ensures_itemOver (hinner : Derives inner (Statement (depth + 1)) bound)
    (tokens : List Token) :
    Ensures (itemOver inner) tokens
      (Round (Within (Statement (depth + 1)) bound)
        (fun tokens => (tokens.headD .eof).isMisc "\x7d" = true) tokens) := by
  refine Ensures.current_bind ?_
  split
  · rename_i hclose
    exact Ensures.pure ⟨rfl, hclose⟩
  · refine Ensures.current_bind ?_
    dsimp only
    split
    · exact Ensures.unexpected_bind _
    · refine (hinner tokens).bind fun stmt rest hpost => ?_
      obtain ⟨top, used, rfl, htop, hstmt⟩ := hpost
      exact Ensures.pure ⟨used, hstmt.ne_nil, rfl, top, htop, hstmt⟩

theorem statements_cons {used used' : List Token} {stmt : Stmt} {stmts : List Stmt}
    (hstmt : Within (Statement (depth + 1)) bound used stmt)
    (hstmts : Within (Statements depth) bound used' stmts) :
    Within (Statements depth) bound (used ++ used') (stmt :: stmts) := by
  obtain ⟨top, htop, hstmt⟩ := hstmt
  obtain ⟨top', htop', hstmts⟩ := hstmts
  exact ⟨max top top', Nat.max_le.2 ⟨htop, htop'⟩, .cons hstmt hstmts⟩

theorem derives_blockOver (hdepth : depth ≤ bound)
    (hinner : Derives inner (Statement (depth + 1)) bound) :
    Derives (blockOver inner) (Block depth) bound := by
  intro tokens
  refine (Ensures.discard (Ensures.expectMisc _ _)).bind fun _ rest hrest => ?_
  subst hrest
  have hnil : Within (Statements depth) bound [] [] := ⟨depth, hdepth, .nil⟩
  have hstmts := Ensures.collect _ hnil statements_cons (ensures_itemOver hinner) rest
  refine hstmts.bind fun stmts rest' hpost => ?_
  obtain ⟨hclose, used, rfl, top, htop, hused⟩ := hpost
  obtain ⟨rest, rfl⟩ := exists_of_isMisc hclose
  refine (Ensures.discard_advance _ _).bind fun _ rest' hrest => ?_
  subst hrest
  exact Ensures.pure ⟨top, punct "\x7b" :: (used ++ [punct "\x7d"]), by simp, htop,
    .braces hused⟩

theorem derives_ifElseOver {levels : Nat}
    (hinner : Derives inner (Statement (depth + 1)) (depth + levels)) :
    Derives (ifElseOver levels inner) (Choice depth) (depth + levels) := by
  have hblock := derives_blockOver (Nat.le_add_right depth levels) hinner
  intro tokens
  refine (Ensures.discard_expect (by decide) _ tokens).bind fun _ rest hpost => ?_
  obtain ⟨keyword, rfl, hkeyword⟩ := hpost
  refine (derives_expr levels depth _).bind fun condition rest hpost => ?_
  obtain ⟨top, used, rfl, htop, hcondition⟩ := hpost
  refine (hblock _).bind fun thenBranch rest hpost => ?_
  obtain ⟨top', used', rfl, htop', hthen⟩ := hpost
  refine (Ensures.discard_expect (by decide) _ _).bind fun _ rest hpost => ?_
  obtain ⟨keyword', rfl, hkeyword'⟩ := hpost
  refine Ensures.current_bind ?_
  dsimp only
  have hmax {top'' : Nat} (htop'' : top'' ≤ depth + levels) :
      max top (max top' top'') ≤ depth + levels :=
    Nat.max_le.2 ⟨htop, Nat.max_le.2 ⟨htop', htop''⟩⟩
  split
  · rename_i hif
    refine (hinner _).bind fun elseBranch rest hpost => ?_
    obtain ⟨top'', used'', rfl, htop'', helse⟩ := hpost
    refine Ensures.pure ⟨_, keyword :: (used ++ (used' ++ keyword' :: used'')), ?_, hmax htop'',
      .another hkeyword hcondition hthen hkeyword' (choice_of_statement helse hif)⟩
    simp
  · refine (hblock _).bind fun elseBranch rest hpost => ?_
    obtain ⟨top'', used'', rfl, htop'', helse⟩ := hpost
    refine Ensures.pure ⟨_, keyword :: (used ++ (used' ++ keyword' :: used'')), ?_, hmax htop'',
      .otherwise hkeyword hcondition hthen hkeyword' helse⟩
    simp

theorem derives_stmtOver {levels : Nat}
    (hinner : Derives inner (Statement (depth + 1)) (depth + levels)) :
    Derives (stmtOver levels inner) (Statement depth) (depth + levels) := by
  have hdepth : depth ≤ depth + levels := Nat.le_add_right depth levels
  intro tokens
  refine Ensures.current_bind ?_
  split
  · exact derives_letVar hdepth tokens
  · exact derives_assignOrCall levels depth tokens
  · refine (derives_ifElseOver hinner tokens).imp fun stmt rest hpost => ?_
    obtain ⟨top, used, hused, htop, hchoice⟩ := hpost
    exact ⟨top, used, hused, htop, .choice hchoice⟩
  · exact derives_ret levels depth tokens
  · split
    · refine (derives_blockOver hdepth hinner tokens).imp fun stmt rest hpost => ?_
      obtain ⟨top, used, hused, htop, hblock⟩ := hpost
      exact ⟨top, used, hused, htop, .block hblock⟩
    · exact Ensures.unexpected _
  · exact Ensures.unexpected _

end Blocks

theorem derives_innerStmt (levels depth : Nat) :
    Derives (innerStmt levels) (Statement (depth + 1)) (depth + levels) := by
  induction levels generalizing depth with
  | zero => exact fun _ => Ensures.throw rfl
  | succ levels ih =>
    have hstmt := derives_stmtOver (ih (depth + 1))
    rwa [Nat.add_right_comm] at hstmt

theorem derives_block (levels depth : Nat) :
    Derives (block levels) (Block depth) (depth + levels) :=
  derives_blockOver (Nat.le_add_right depth levels) (derives_innerStmt levels depth)

/-! ## Declarations -/

theorem ensures_param (tokens : List Token) :
    Ensures param tokens fun param rest =>
      ∃ used, tokens = used ++ rest ∧ Parameter used param := by
  refine (Ensures.expect (by decide) _ tokens).bind fun name rest hpost => ?_
  obtain ⟨rfl, hname⟩ := hpost
  refine (Ensures.discard (Ensures.expectMisc ":" _)).bind fun _ rest hrest => ?_
  subst hrest
  refine (Ensures.expect (by decide) _ _).bind fun type rest hpost => ?_
  obtain ⟨rfl, htype⟩ := hpost
  exact Ensures.pure ⟨[name, punct ":", type], rfl, .typed hname htype⟩

theorem ensures_moreParam (tokens : List Token) :
    Ensures moreParam tokens
      (Round (fun used param => ∃ used', used = punct "," :: used' ∧ Parameter used' param)
        (fun _ => True) tokens) := by
  refine Ensures.current_bind ?_
  split
  · rename_i hcomma
    obtain ⟨rest, rfl⟩ := exists_of_isMisc hcomma
    refine (Ensures.discard_advance _ _).bind fun _ rest' hrest => ?_
    subst hrest
    refine (ensures_param _).bind fun param rest hpost => ?_
    obtain ⟨used, rfl, hparam⟩ := hpost
    exact Ensures.pure ⟨punct "," :: used, by simp, rfl, used, rfl, hparam⟩
  · exact Ensures.pure ⟨rfl, trivial⟩

theorem moreParams_cons {used used' : List Token} {param : Param} {params : List Param}
    (hparam : ∃ used', used = punct "," :: used' ∧ Parameter used' param)
    (hparams : MoreParams used' params) : MoreParams (used ++ used') (param :: params) := by
  obtain ⟨used, rfl, hparam⟩ := hparam
  exact .cons hparam hparams

theorem ensures_params (tokens : List Token) :
    Ensures params tokens fun params rest =>
      ∃ used, tokens = used ++ rest ∧ Params used params := by
  refine Ensures.current_bind ?_
  split
  · exact Ensures.pure ⟨[], rfl, .none⟩
  · refine (ensures_param tokens).bind fun param rest hpost => ?_
    obtain ⟨used, rfl, hparam⟩ := hpost
    have hothers := Ensures.collect MoreParams .nil moreParams_cons ensures_moreParam rest
    refine hothers.bind fun params rest' hpost => ?_
    obtain ⟨-, used', rfl, hparams⟩ := hpost
    exact Ensures.pure ⟨used ++ used', by simp, .some hparam hparams⟩

theorem ensures_proto (tokens : List Token) :
    Ensures proto tokens fun proto rest => ∃ used, tokens = used ++ rest ∧ Proto used proto := by
  refine (Ensures.expect (by decide) _ tokens).bind fun name rest hpost => ?_
  obtain ⟨rfl, hname⟩ := hpost
  refine (Ensures.discard (Ensures.expectMisc "(" _)).bind fun _ rest hrest => ?_
  subst hrest
  refine (ensures_params _).bind fun params rest hpost => ?_
  obtain ⟨used, rfl, hparams⟩ := hpost
  refine (Ensures.discard (Ensures.expectMisc ")" _)).bind fun _ rest hrest => ?_
  subst hrest
  refine (Ensures.discard (Ensures.expectMisc ":" _)).bind fun _ rest hrest => ?_
  subst hrest
  refine (Ensures.expect (by decide) _ _).bind fun type rest hpost => ?_
  obtain ⟨rfl, htype⟩ := hpost
  exact Ensures.pure ⟨name :: punct "(" :: (used ++ [punct ")", punct ":", type]), by simp,
    .typed hname hparams htype⟩

theorem derives_definition (levels : Nat) : Derives (definition levels) Declaration levels := by
  intro tokens
  refine (Ensures.discard_expect (by decide) _ tokens).bind fun _ rest hpost => ?_
  obtain ⟨keyword, rfl, hkeyword⟩ := hpost
  refine (ensures_proto _).bind fun proto rest hpost => ?_
  obtain ⟨used, rfl, hproto⟩ := hpost
  refine (derives_block levels 0 _).bind fun body rest hpost => ?_
  obtain ⟨top, used', rfl, htop, hbody⟩ := hpost
  rw [Nat.zero_add] at htop
  exact Ensures.pure ⟨top, keyword :: (used ++ used'), by simp, htop,
    .defined hkeyword hproto hbody⟩

theorem derives_externDecl (bound : Nat) : Derives externDecl Declaration bound := by
  intro tokens
  refine (Ensures.discard_expect (by decide) _ tokens).bind fun _ rest hpost => ?_
  obtain ⟨keyword, rfl, hkeyword⟩ := hpost
  refine (ensures_proto _).bind fun proto rest hpost => ?_
  obtain ⟨used, rfl, hproto⟩ := hpost
  exact Ensures.pure ⟨0, keyword :: used, by simp, Nat.zero_le _, .external hkeyword hproto⟩

theorem ensures_decl? (levels : Nat) (tokens : List Token) :
    Ensures (decl? levels) tokens
      (Round (Within Declaration levels) (fun tokens => (tokens.headD .eof).kind = .eof)
        tokens) := by
  -- A declaration is recorded in the log, which the tokens do not depend on.
  have hrecord {parser : Parser Decl} (hparser : Derives parser Declaration levels) :
      Ensures (do
        let decl ← parser
        record (.parsed decl.name decl.isExtern)
        return some decl) tokens
        (Round (Within Declaration levels) (fun tokens => (tokens.headD .eof).kind = .eof)
          tokens) := by
    refine (hparser tokens).bind fun decl rest hpost => ?_
    obtain ⟨top, used, rfl, htop, hdecl⟩ := hpost
    refine (Ensures.record rfl _).bind fun _ rest' hrest => ?_
    subst hrest
    exact Ensures.pure ⟨used, hdecl.ne_nil, rfl, top, htop, hdecl⟩
  refine Ensures.current_bind ?_
  dsimp only
  split
  · rename_i heof
    exact Ensures.pure ⟨rfl, heof⟩
  · exact hrecord (derives_definition levels)
  · exact hrecord (derives_externDecl levels)
  · exact Ensures.unexpected_bind _

theorem declarations_cons {bound : Nat} {used used' : List Token} {decl : Decl} {decls : List Decl}
    (hdecl : Within Declaration bound used decl) (hdecls : Within Declarations bound used' decls) :
    Within Declarations bound (used ++ used') (decl :: decls) := by
  obtain ⟨top, htop, hdecl⟩ := hdecl
  obtain ⟨top', htop', hdecls⟩ := hdecls
  exact ⟨max top top', Nat.max_le.2 ⟨htop, htop'⟩, .cons hdecl hdecls⟩

theorem ensures_decls (levels : Nat) (tokens : List Token) :
    Ensures (decls levels) tokens fun decls rest =>
      (rest.headD .eof).kind = .eof ∧ ∃ used, tokens = used ++ rest ∧
        Within Declarations levels used decls := by
  have hnil : Within Declarations levels [] [] := ⟨0, Nat.zero_le _, .nil⟩
  exact Ensures.collect _ hnil declarations_cons (ensures_decl? levels) tokens

/-- A source that is accepted has been read to its end, and its tokens derive the answer within
the limit.  One that is not accepted has a syntax error. -/
theorem declarations_of_parse (name source : String) :
    match (Module.parse name source).1 with
    | .ok module => module.name = name ∧ ∃ top, top ≤ maxNesting ∧
        Declarations top (Token.tokenize source).dropLast module.decls
    | .error error => error.category = .malformed := by
  have hrun := ensures_decls maxNesting _ _ (State.valid_ofSource source) rfl
  rw [State.pending_ofSource] at hrun
  unfold Module.parse Decl.parseAll Parser.parse
  cases heq : decls maxNesting (State.ofSource source) with
  | error error state =>
    rw [heq] at hrun
    exact hrun.2
  | ok decls state =>
    rw [heq] at hrun
    obtain ⟨hcontinues, heof, used, hused, top, htop, hdecls⟩ := hrun
    rw [hcontinues.valid.pending_eq_nil heof, List.append_nil] at hused
    rw [← hused] at hdecls
    exact ⟨rfl, top, htop, hdecls⟩

end Frontend.Parser
