import Frontend.Proofs.Acceptance
import Frontend.Proofs.Deriving.Module
import Frontend.Proofs.Layout
import Frontend.Proofs.Viability.Expr

/-!
# Unexpected tokens in statements, declarations and modules

As for expressions, each parser is taken with the contract of the parser of a statement one level
further down.  A block is completed by its brace, and a choice by empty branches.

At the end, what was passed over of a source before an unexpected token is completed to the
tokens of a whole source, which the parser then accepts.
-/

namespace Frontend

namespace Parser

open Grammar

/-! ## Statements -/

section Statements

variable {depth bound : Nat}

/-- A call without arguments is a statement. -/
theorem completable_stmt (hdepth : depth ≤ bound) :
    Completable (fun used => ∃ stmt, Within (Statement depth) bound used stmt) [] :=
  ⟨[filler, punct "(", punct ")"], by decide, _, depth, hdepth, .call rfl .none⟩

theorem completes_letVar (hdepth : depth ≤ bound) :
    Completes letVar (Within (Statement depth) bound) := by
  intro tokens
  refine Viable.discard_expect_bind (by decide) (completable_stmt hdepth)
    fun keyword rest hkeyword => ?_
  refine Viable.expect_bind (by decide) ?_ fun name rest hname => ?_
  · exact ⟨[filler, punct ":", filler], by decide, _, depth, hdepth, .letVar hkeyword rfl rfl⟩
  refine Viable.discard_expectMisc_bind ?_ fun rest => ?_
  · exact ⟨[punct ":", filler], by decide, _, depth, hdepth, .letVar hkeyword hname rfl⟩
  refine Viable.bind_pure (Viable.expect ?_ _) _
  exact ⟨[filler], by decide, _, depth, hdepth, .letVar hkeyword hname rfl⟩

theorem completes_assignOrCall (levels depth : Nat) :
    Completes (assignOrCall levels) (Within (Statement depth) (depth + levels)) := by
  have hdepth : depth ≤ depth + levels := Nat.le_add_right depth levels
  intro tokens
  refine Viable.expect_bind (by decide) (completable_stmt hdepth) fun name rest hname => ?_
  refine Viable.current_bind ?_
  split
  · rename_i hmisc
    obtain ⟨rest, rfl⟩ := exists_of_isMisc hmisc
    refine Viable.discard_advance_bind (Viable.bind_pure ?_ _)
    refine (completes_expr levels depth).open_goal fun used value hvalue => ?_
    obtain ⟨top, htop, hvalue⟩ := hvalue
    exact .of_goal ⟨_, top, htop, .assign hname hvalue⟩
  · refine Viable.current_bind ?_
    split
    · rename_i hmisc
      obtain ⟨rest, rfl⟩ := exists_of_isMisc hmisc
      refine Viable.discard_advance_bind (Viable.bind_pure ?_ _)
      refine (completes_arguments levels depth).open_goal fun used args hargs => ?_
      obtain ⟨top, htop, hargs⟩ := hargs
      exact .of_goal ⟨_, top, htop, .call hname hargs⟩
    · refine Viable.unexpected ?_ _
      exact ⟨[punct "(", punct ")"], by decide, _, depth, hdepth, .call hname .none⟩

theorem completes_ret (levels depth : Nat) :
    Completes (ret levels) (Within (Statement depth) (depth + levels)) := by
  intro tokens
  refine Viable.discard_expect_bind (by decide) (completable_stmt (Nat.le_add_right depth levels))
    fun keyword rest hkeyword => Viable.bind_pure ?_ _
  refine (completes_expr levels depth).open_goal fun used value hvalue => ?_
  obtain ⟨top, htop, hvalue⟩ := hvalue
  exact .of_goal ⟨_, top, htop, .ret hkeyword hvalue⟩

end Statements

section Blocks

variable {inner : Parser Stmt} {depth bound : Nat}

/-- A block that lacks a statement can as well be closed. -/
theorem viable_itemOver (hdepth : depth ≤ bound)
    (hinner : Completes inner (Within (Statement (depth + 1)) bound)) (tokens : List Token) :
    Viable (itemOver inner) tokens fun used =>
      ∃ stmts, Within (Statements depth) bound used stmts := by
  have hnil : Within (Statements depth) bound [] [] := ⟨depth, hdepth, .nil⟩
  refine Viable.current_bind ?_
  split
  · exact Viable.pure _
  · refine Viable.current_bind ?_
    dsimp only
    split
    · exact Viable.unexpected_bind (.of_goal ⟨[], hnil⟩) _
    · refine Viable.bind_pure ?_ _
      refine hinner.open_goal fun used stmt hstmt => ?_
      exact .of_goal (Viable.exists_items (statements_cons hstmt hnil))

theorem completes_blockOver (hdepth : depth ≤ bound)
    (hderives : Derives inner (Statement (depth + 1)) bound)
    (hinner : Completes inner (Within (Statement (depth + 1)) bound)) :
    Completes (blockOver inner) (Within (Block depth) bound) := by
  have hnil : Within (Statements depth) bound [] [] := ⟨depth, hdepth, .nil⟩
  have hclose {used : List Token} {stmts : List Stmt}
      (hstmts : Within (Statements depth) bound used stmts) :
      ∃ stmt, Within (Block depth) bound (punct "\x7b" :: (used ++ [punct "\x7d"])) stmt := by
    obtain ⟨top, htop, hstmts⟩ := hstmts
    exact ⟨_, top, htop, .braces hstmts⟩
  intro tokens
  refine Viable.discard_expectMisc_bind ?_ fun rest => ?_
  · exact ⟨[punct "\x7b", punct "\x7d"], by decide, hclose hnil⟩
  refine Viable.collect_bind _ hnil statements_cons (ensures_itemOver hderives)
    (viable_itemOver hdepth hinner) ?_ fun used stmts rest _ hend => ?_
  · intro used stmts hstmts
    exact ⟨[punct "\x7d"], by decide, hclose hstmts⟩
  · obtain ⟨rest, rfl⟩ := exists_of_isMisc hend
    exact Viable.discard_advance_bind (Viable.pure _)

/-- The empty block. -/
theorem emptyBlock (hdepth : depth ≤ bound) :
    Within (Block depth) bound [punct "\x7b", punct "\x7d"] (.block []) :=
  ⟨depth, hdepth, .braces .nil⟩

theorem choice_otherwise {keyword keyword' : Token} {used used' used'' : List Token}
    {condition : Expr} {thenBranch elseBranch : Stmt} (hkeyword : keyword.kind = .kwIf)
    (hcondition : Within (Expression depth) bound used condition)
    (hthen : Within (Block depth) bound used' thenBranch) (hkeyword' : keyword'.kind = .kwElse)
    (helse : Within (Block depth) bound used'' elseBranch) :
    ∃ stmt, Within (Choice depth) bound
      (keyword :: (used ++ (used' ++ keyword' :: used''))) stmt := by
  obtain ⟨top, htop, hcondition⟩ := hcondition
  obtain ⟨top', htop', hthen⟩ := hthen
  obtain ⟨top'', htop'', helse⟩ := helse
  exact ⟨_, _, Nat.max_le.2 ⟨htop, Nat.max_le.2 ⟨htop', htop''⟩⟩,
    .otherwise hkeyword hcondition hthen hkeyword' helse⟩

theorem choice_another {keyword keyword' : Token} {used used' used'' : List Token}
    {condition : Expr} {thenBranch elseBranch : Stmt} (hkeyword : keyword.kind = .kwIf)
    (hcondition : Within (Expression depth) bound used condition)
    (hthen : Within (Block depth) bound used' thenBranch) (hkeyword' : keyword'.kind = .kwElse)
    (helse : Within (Choice (depth + 1)) bound used'' elseBranch) :
    ∃ stmt, Within (Choice depth) bound
      (keyword :: (used ++ (used' ++ keyword' :: used''))) stmt := by
  obtain ⟨top, htop, hcondition⟩ := hcondition
  obtain ⟨top', htop', hthen⟩ := hthen
  obtain ⟨top'', htop'', helse⟩ := helse
  exact ⟨_, _, Nat.max_le.2 ⟨htop, Nat.max_le.2 ⟨htop', htop''⟩⟩,
    .another hkeyword hcondition hthen hkeyword' helse⟩

/-- An empty second branch. -/
def emptyElse : List Token :=
  [⟨.kwElse, "else"⟩, punct "\x7b", punct "\x7d"]

theorem completable_choice (hdepth : depth ≤ bound) :
    Completable (fun used => ∃ stmt, Within (Choice depth) bound used stmt) [] := by
  refine ⟨⟨.kwIf, "if"⟩ :: filler :: punct "\x7b" :: punct "\x7d" :: emptyElse, by decide, ?_⟩
  have hname : Within (Expression depth) bound [filler] _ :=
    ⟨max depth depth, Nat.max_le.2 ⟨hdepth, hdepth⟩, .chain (.var rfl) .nil⟩
  exact choice_otherwise rfl hname (emptyBlock hdepth) rfl (emptyBlock hdepth)

/-- A parser of statements that begins with `if` parses a choice.  Either it has passed over the
`if`, or it has not begun yet. -/
theorem viable_choice {tokens : List Token}
    (hinner : Completes inner (Within (Statement depth) bound))
    (hif : (tokens.headD .eof).kind = .kwIf) :
    Viable inner tokens fun used => ∃ stmt, Within (Choice depth) bound used stmt := by
  intro state hvalid hpending expected found state' hrun
  obtain ⟨hfound, used, hused, more, hmore, stmt, top, htop, hstmt⟩ :=
    hinner tokens state hvalid hpending expected found state' hrun
  refine ⟨hfound, used, hused, ?_⟩
  cases used with
  | nil => exact completable_choice (Nat.le_trans hstmt.depth_le htop)
  | cons first used =>
    rw [hused] at hif
    have hhead : (((first :: used ++ more) ++ []).headD .eof).kind = .kwIf := hif
    exact ⟨more, hmore, stmt, top, htop, choice_of_statement hstmt hhead⟩

theorem completes_ifElseOver {levels : Nat}
    (hderives : Derives inner (Statement (depth + 1)) (depth + levels))
    (hinner : Completes inner (Within (Statement (depth + 1)) (depth + levels))) :
    Completes (ifElseOver levels inner) (Within (Choice depth) (depth + levels)) := by
  have hdepth : depth ≤ depth + levels := Nat.le_add_right depth levels
  -- up to the `else` the choice is completed by empty blocks, behind it by the branch that was begun
  have hempty := emptyBlock hdepth
  have hblockDerives := derives_blockOver hdepth hderives
  have hblock := completes_blockOver hdepth hderives hinner
  intro tokens
  refine Viable.discard_expect_bind (by decide) (completable_choice hdepth)
    fun keyword rest hkeyword => ?_
  refine (completes_expr levels depth).bind (derives_expr levels depth).within ?_
    fun used condition rest hcondition => ?_
  · intro used condition hcondition
    exact ⟨punct "\x7b" :: punct "\x7d" :: emptyElse, by decide,
      choice_otherwise hkeyword hcondition hempty rfl hempty⟩
  refine hblock.bind hblockDerives.within ?_ fun used' thenBranch rest hthen => ?_
  · intro used' thenBranch hthen
    exact ⟨emptyElse, by decide, choice_otherwise hkeyword hcondition hthen rfl hempty⟩
  refine Viable.discard_expect_bind (by decide) ?_ fun keyword' rest hkeyword' => ?_
  · exact ⟨emptyElse, by decide, choice_otherwise hkeyword hcondition hthen rfl hempty⟩
  refine Viable.current_bind ?_
  dsimp only
  split
  · rename_i hif
    refine Viable.bind_pure ?_ _
    refine (viable_choice hinner hif).open_goal fun used'' hchoice => .of_goal ?_
    obtain ⟨elseBranch, helse⟩ := hchoice
    exact choice_another hkeyword hcondition hthen hkeyword' helse
  · refine Viable.bind_pure ?_ _
    refine hblock.open_goal fun used'' elseBranch helse => .of_goal ?_
    exact choice_otherwise hkeyword hcondition hthen hkeyword' helse

theorem completes_stmtOver {levels : Nat}
    (hderives : Derives inner (Statement (depth + 1)) (depth + levels))
    (hinner : Completes inner (Within (Statement (depth + 1)) (depth + levels))) :
    Completes (stmtOver levels inner) (Within (Statement depth) (depth + levels)) := by
  have hdepth : depth ≤ depth + levels := Nat.le_add_right depth levels
  intro tokens
  refine Viable.current_bind ?_
  split
  · exact completes_letVar hdepth tokens
  · exact completes_assignOrCall levels depth tokens
  · refine (completes_ifElseOver hderives hinner).open_goal fun used stmt hchoice => ?_
    obtain ⟨top, htop, hchoice⟩ := hchoice
    exact .of_goal ⟨stmt, top, htop, .choice hchoice⟩
  · exact completes_ret levels depth tokens
  · split
    · refine (completes_blockOver hdepth hderives hinner).open_goal fun used stmt hblock => ?_
      obtain ⟨top, htop, hblock⟩ := hblock
      exact .of_goal ⟨stmt, top, htop, .block hblock⟩
    · exact Viable.unexpected (completable_stmt hdepth) _
  · exact Viable.unexpected (completable_stmt hdepth) _

end Blocks

theorem completes_innerStmt (levels depth : Nat) :
    Completes (innerStmt levels) (Within (Statement (depth + 1)) (depth + levels)) := by
  induction levels generalizing depth with
  | zero => exact fun _ => Viable.throw (by simp)
  | succ levels ih =>
    have hstmt := completes_stmtOver (derives_innerStmt levels (depth + 1)) (ih (depth + 1))
    rwa [Nat.add_right_comm] at hstmt

theorem completes_block (levels depth : Nat) :
    Completes (block levels) (Within (Block depth) (depth + levels)) :=
  completes_blockOver (Nat.le_add_right depth levels) (derives_innerStmt levels depth)
    (completes_innerStmt levels depth)

/-! ## Declarations -/

theorem completes_param : Completes param Parameter := by
  intro tokens
  refine Viable.expect_bind (by decide) ?_ fun name rest hname => ?_
  · exact ⟨[filler, punct ":", filler], by decide, _, .typed rfl rfl⟩
  refine Viable.discard_expectMisc_bind ?_ fun rest => ?_
  · exact ⟨[punct ":", filler], by decide, _, .typed hname rfl⟩
  refine Viable.bind_pure (Viable.expect ?_ _) _
  exact ⟨[filler], by decide, _, .typed hname rfl⟩

theorem viable_moreParam (tokens : List Token) :
    Viable moreParam tokens fun used => ∃ params, MoreParams used params := by
  refine Viable.current_bind ?_
  split
  · rename_i hcomma
    obtain ⟨rest, rfl⟩ := exists_of_isMisc hcomma
    refine Viable.discard_advance_bind (Viable.bind_pure ?_ _)
    refine completes_param.open_goal fun used param hparam => .of_goal ?_
    exact Viable.exists_items (moreParams_cons ⟨used, rfl, hparam⟩ .nil)
  · exact Viable.pure _

theorem completes_params : Completes params Params := by
  intro tokens
  refine Viable.current_bind ?_
  split
  · exact Viable.pure _
  · refine completes_param.bind ensures_param ?_ fun used param rest hparam => ?_
    · intro used param hparam
      exact ⟨[], List.forall_mem_nil _, _, .some hparam .nil⟩
    · refine Viable.bind_pure ?_ _
      refine Viable.collect _ moreParams_cons ensures_moreParam viable_moreParam ?_
      intro used' params hparams
      exact .of_goal ⟨_, .some hparam hparams⟩

theorem completes_proto : Completes proto Proto := by
  intro tokens
  refine Viable.expect_bind (by decide) ?_ fun name rest hname => ?_
  · exact ⟨[filler, punct "(", punct ")", punct ":", filler], by decide, _, .typed rfl .none rfl⟩
  refine Viable.discard_expectMisc_bind ?_ fun rest => ?_
  · exact ⟨[punct "(", punct ")", punct ":", filler], by decide, _, .typed hname .none rfl⟩
  refine completes_params.bind ensures_params ?_ fun used params rest hparams => ?_
  · intro used params hparams
    exact ⟨[punct ")", punct ":", filler], by decide, _, .typed hname hparams rfl⟩
  refine Viable.discard_expectMisc_bind ?_ fun rest => ?_
  · exact ⟨[punct ")", punct ":", filler], by decide, _, .typed hname hparams rfl⟩
  refine Viable.discard_expectMisc_bind ?_ fun rest => ?_
  · exact ⟨[punct ":", filler], by decide, _, .typed hname hparams rfl⟩
  refine Viable.bind_pure (Viable.expect ?_ _) _
  exact ⟨[filler], by decide, _, .typed hname hparams rfl⟩

theorem declarations_single {bound : Nat} {used : List Token} {decl : Decl}
    (hdecl : Within Declaration bound used decl) :
    ∃ decls, Within Declarations bound used decls :=
  Viable.exists_items (declarations_cons hdecl ⟨0, Nat.zero_le bound, .nil⟩)

/-- The declarations can end wherever one would begin. -/
theorem completable_decls (bound : Nat) :
    Completable (fun used => ∃ decls, Within Declarations bound used decls) [] :=
  .of_goal ⟨[], 0, Nat.zero_le bound, .nil⟩

theorem viable_definition (levels : Nat) (tokens : List Token) :
    Viable (definition levels) tokens fun used =>
      ∃ decls, Within Declarations levels used decls := by
  refine Viable.discard_expect_bind (by decide) (completable_decls levels)
    fun keyword rest hkeyword => ?_
  refine completes_proto.bind ensures_proto ?_ fun used proto rest hproto => ?_
  · intro used proto hproto
    exact ⟨[punct "\x7b", punct "\x7d"], by decide,
      declarations_single ⟨0, Nat.zero_le levels, .defined hkeyword hproto (.braces .nil)⟩⟩
  refine Viable.bind_pure ?_ _
  refine (completes_block levels 0).open_goal fun used' body hbody => .of_goal ?_
  obtain ⟨top, htop, hbody⟩ := hbody
  rw [Nat.zero_add] at htop
  exact declarations_single ⟨top, htop, .defined hkeyword hproto hbody⟩

theorem viable_externDecl (bound : Nat) (tokens : List Token) :
    Viable externDecl tokens fun used => ∃ decls, Within Declarations bound used decls := by
  refine Viable.discard_expect_bind (by decide) (completable_decls bound)
    fun keyword rest hkeyword => Viable.bind_pure ?_ _
  refine completes_proto.open_goal fun used proto hproto => .of_goal ?_
  exact declarations_single ⟨0, Nat.zero_le bound, .external hkeyword hproto⟩

theorem viable_decl? (levels : Nat) (tokens : List Token) :
    Viable (decl? levels) tokens fun used => ∃ decls, Within Declarations levels used decls := by
  refine Viable.current_bind ?_
  dsimp only
  split
  · exact Viable.pure _
  · exact Viable.bind_sure (viable_definition levels tokens) fun _ _ => ⟨_, _, rfl⟩
  · exact Viable.bind_sure (viable_externDecl levels tokens) fun _ _ => ⟨_, _, rfl⟩
  · exact Viable.unexpected_bind (completable_decls levels) _

theorem completes_decls (levels : Nat) : Completes (decls levels) (Within Declarations levels) := by
  intro tokens
  refine Viable.collect _ declarations_cons (ensures_decl? levels) (viable_decl? levels) ?_
  intro used decls hdecls
  exact .of_goal ⟨decls, hdecls⟩

/-! ## Sources -/

theorem lexical_of_mem_fillers {token : Token} (hmem : token ∈ fillers) : token.Lexical := by
  have hwords : ∀ token ∈ fillers, Token.words token.text.toList = [token] := by decide +kernel
  have hsegments := Token.segmentation_words token.text.toList
  rw [hwords token hmem] at hsegments
  exact hsegments.lexical token (List.mem_singleton_self token)

/-- The tokens of a source up to some place, and fillers behind them, are the tokens of a source. -/
theorem exists_source_completed {source : String} {used rest more : List Token}
    (hused : (Token.tokenize source).dropLast = used ++ rest)
    (hmore : ∀ token ∈ more, token ∈ fillers) :
    ∃ completed, Token.tokenize completed = used ++ more ++ [.eof] := by
  have hlexical : ∀ token ∈ used ++ more, token.Lexical := by
    intro token hmem
    rcases List.mem_append.1 hmem with hmem | hmem
    · have hword : token ∈ Token.words source.toList := by
        show token ∈ (Token.tokenize source).dropLast
        rw [hused]
        exact List.mem_append_left rest hmem
      exact (Token.segmentation_words source.toList).lexical token hword
    · exact lexical_of_mem_fillers (hmore token hmem)
  refine ⟨String.ofList (Token.spaced (used ++ more)), ?_⟩
  rw [Token.tokenize, String.toList_ofList, Token.tokens_eq_words_append,
    (Token.segmentation_spaced hlexical).words_eq]

theorem run_of_parse_error {name source : String} {error : Error}
    (hfails : (Module.parse name source).1 = .error error) :
    decls maxNesting (.ofSource source) = .error error (Module.parse name source).2 := by
  unfold Module.parse Decl.parseAll Parser.parse at hfails ⊢
  cases heq : decls maxNesting (State.ofSource source) with
  | ok decls state =>
    rw [heq] at hfails
    cases hfails
  | error error state =>
    rw [heq] at hfails
    cases hfails
    rfl

/-- A result can be compared with an error even if answers cannot be compared. -/
theorem eq_error_of_test {α : Type} {result : Except Error α} {error : Error}
    (htest : (match result with
      | .error found => found == error
      | .ok _ => false) = true) : result = .error error := by
  cases result with
  | error found => rw [beq_iff_eq.1 htest]
  | ok _ => cases htest

/-- Where the parser meets an unexpected token, it names this token, and the tokens before it begin
the tokens of a source that it accepts. -/
theorem exists_accepted {name source expected found : String}
    (hfails : (Module.parse name source).1 = .error (.unexpectedToken expected found)) :
    let ended := (Module.parse name source).2
    found = ended.current.describe ∧
      ∃ accepted module, (Module.parse name accepted).1 = .ok module ∧
        (Token.tokenize source).take (ended.index source) <+: Token.tokenize accepted := by
  intro ended
  obtain ⟨hfound, used, hused, more, hmore, decls, top, htop, hdecls⟩ :=
    completes_decls maxNesting _ _ (State.valid_ofSource source) rfl _ _ _
      (run_of_parse_error hfails)
  have hbefore : (Token.tokenize source).take (ended.index source) = used := by
    rw [State.index_eq hused, State.tokenize_eq_pending, hused, List.append_assoc, List.take_left]
  rw [State.pending_ofSource] at hused
  obtain ⟨accepted, haccepted⟩ := exists_source_completed hused hmore
  have hderives : Declarations top (Token.tokenize accepted).dropLast decls := by
    rwa [haccepted, List.dropLast_concat]
  have hparse : (Module.parse name accepted).1 = .ok ⟨name, decls⟩ := by
    rw [parse_of_declarations hderives, if_pos htop]
  refine ⟨hfound, accepted, _, hparse, ?_⟩
  rw [haccepted, hbefore, List.append_assoc]
  exact List.prefix_append used _

/-- A source that begins with the tokens of another one, up to the one on which the parser ends
there, is parsed with the same answer. -/
theorem parse_of_begins (name : String) {source other : String}
    (hother : (Token.tokenize source).take ((Module.parse name source).2.index source) ++
      [(Module.parse name source).2.current] <+: Token.tokenize other) :
    (Module.parse name other).1 = (Module.parse name source).1 := by
  have hahead := (local_decls maxNesting).looksOneAhead source
  have hcurrent : (Token.tokenize source)[(Module.parse name source).2.index source]? =
      some (Module.parse name source).2.current := hahead.1
  have htake : (Token.tokenize source).take ((Module.parse name source).2.index source + 1) <+:
      Token.tokenize other := by
    rw [List.take_add_one, hcurrent]
    exact hother
  have hlength : (Module.parse name source).2.index source < (Token.tokenize source).length :=
    (List.getElem?_eq_some_iff.1 hcurrent).1
  rw [List.prefix_iff_eq_take, List.length_take, Nat.min_eq_left hlength] at htake
  have hanswer := (hahead.2 other htake.symm).1
  show (Decl.parseAll other).1.map _ = (Decl.parseAll source).1.map _
  rw [Decl.parseAll, Decl.parseAll, hanswer]

end Parser

/-- A source that is refused at an unexpected token is refused as soon as it can be.  The tokens
before the one on which the parser ends, which is the one that it names, begin the tokens of a
source that is accepted; and every source that begins with these tokens and this one is refused
in the same way. -/
theorem Module.unexpected_token_is_earliest {name source expected found : String}
    (hfails : (Module.parse name source).1 = .error (.unexpectedToken expected found)) :
    let ended := (Module.parse name source).2
    let before := (Token.tokenize source).take (ended.index source)
    (Token.tokenize source)[ended.index source]? = some ended.current ∧
    found = ended.current.describe ∧
    (∃ accepted module, (Module.parse name accepted).1 = .ok module ∧
      before <+: Token.tokenize accepted) ∧
    ∀ other, before ++ [ended.current] <+: Token.tokenize other →
      (Module.parse name other).1 = .error (.unexpectedToken expected found) := by
  intro ended before
  obtain ⟨hfound, haccepted⟩ := Parser.exists_accepted hfails
  refine ⟨((Parser.local_decls Parser.maxNesting).looksOneAhead source).1, hfound, haccepted, ?_⟩
  intro other hother
  rw [Parser.parse_of_begins name hother, hfails]

/-- The second operand of a sum is missing. -/
theorem Module.unexpected_token_in_sum :
    (Module.parse "m" "def f(x: int): int \x7b return (x + )").1 =
      .error (.unexpectedToken "expression" ")") ∧
    (∃ accepted module, (Module.parse "m" accepted).1 = .ok module ∧
      (Token.tokenize "def f(x: int): int \x7b return (x + )").take 14 <+:
        Token.tokenize accepted) ∧
    (Module.parse "m" "def f(x: int): int \x7b return (x + ) \x7d").1 =
      .error (.unexpectedToken "expression" ")") := by
  have hfails : (Module.parse "m" "def f(x: int): int \x7b return (x + )").1 =
      .error (.unexpectedToken "expression" ")") :=
    Parser.eq_error_of_test (by decide +kernel)
  have hindex : (Module.parse "m" "def f(x: int): int \x7b return (x + )").2.index
      "def f(x: int): int \x7b return (x + )" = 14 := by
    decide +kernel
  obtain ⟨-, -, haccepted, hrefused⟩ := unexpected_token_is_earliest hfails
  rw [hindex] at haccepted hrefused
  exact ⟨hfails, haccepted, hrefused _ (by decide +kernel)⟩

end Frontend
