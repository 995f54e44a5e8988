import Frontend.Proofs.Reading.Expr

/-!
# Reading statements, declarations and modules

Statements have no separators.  One ends where the next begins because no statement
begins with a parenthesis or an operator: `StartsStatement` lists how they begin.

The last group follows the derivations of declarations.  `parse_of_declarations` is the
result for a whole source: its tokens, if they can be derived, are accepted within the
levels that the largest index asks for and refused as too deep below that.
-/

namespace Frontend.Parser

open Grammar

/-! ## How statements begin -/

/-- The tokens that a statement can begin with. -/
def StartsStatement (token : Token) : Prop :=
  token.kind = .kwLet ∨ token.kind = .identifier ∨ token.kind = .kwIf ∨
    token.kind = .kwReturn ∨ token = punct "\x7b"

theorem starts_of_choice {depth top : Nat} {tokens : List Token} {stmt : Stmt}
    (hchoice : Choice depth top tokens stmt) :
    ∃ keyword tokens', tokens = keyword :: tokens' ∧ keyword.kind = .kwIf := by
  cases hchoice with
  | otherwise hkeyword | another hkeyword => exact ⟨_, _, rfl, hkeyword⟩

theorem starts_of_statement {depth top : Nat} {tokens : List Token} {stmt : Stmt}
    (hstmt : Statement depth top tokens stmt) :
    ∃ token tokens', tokens = token :: tokens' ∧ StartsStatement token := by
  cases hstmt with
  | letVar hkind => exact ⟨_, _, rfl, .inl hkind⟩
  | assign hkind | call hkind => exact ⟨_, _, rfl, .inr (.inl hkind)⟩
  | choice hchoice =>
    obtain ⟨keyword, tokens', rfl, hkind⟩ := starts_of_choice hchoice
    exact ⟨keyword, tokens', rfl, .inr (.inr (.inl hkind))⟩
  | ret hkind => exact ⟨_, _, rfl, .inr (.inr (.inr (.inl hkind)))⟩
  | block hblock =>
    cases hblock
    exact ⟨_, _, rfl, .inr (.inr (.inr (.inr rfl)))⟩

theorem StartsStatement.endsExpression {token : Token} (hstarts : StartsStatement token)
    (tokens : List Token) : EndsExpression (token :: tokens) := by
  rcases hstarts with hkind | hkind | hkind | hkind | rfl
  iterate 4 exact endsExpression_cons (by simp [hkind]) (by simp [hkind]) _
  exact endsExpression_punct (by decide) _

theorem StartsStatement.not_close {token : Token} (hstarts : StartsStatement token) :
    token.isMisc "\x7d" = false := by
  rcases hstarts with hkind | hkind | hkind | hkind | rfl
  iterate 4 simp [Token.isMisc, hkind]
  rfl

theorem StartsStatement.kind_ne_eof {token : Token} (hstarts : StartsStatement token) :
    token.kind ≠ .eof := by
  rcases hstarts with hkind | hkind | hkind | hkind | rfl
  iterate 4 simp [hkind]
  simp [punct]

theorem endsExpression_block {depth top : Nat} {tokens : List Token} {stmt : Stmt}
    (hblock : Block depth top tokens stmt) (rest : List Token) :
    EndsExpression (tokens ++ rest) := by
  cases hblock
  exact endsExpression_punct (by decide) _

theorem kind_block_ne_if {depth top : Nat} {tokens : List Token} {stmt : Stmt}
    (hblock : Block depth top tokens stmt) (rest : List Token) :
    ((tokens ++ rest).headD .eof).kind ≠ .kwIf := by
  cases hblock
  simp [punct]

/-- What stands in a block after a statement ends the statement. -/
theorem endsExpression_statements {depth top : Nat} {tokens : List Token} {stmts : List Stmt}
    (hstmts : Statements depth top tokens stmts) (rest : List Token) :
    EndsExpression (tokens ++ punct "\x7d" :: rest) := by
  cases hstmts with
  | nil => exact endsExpression_punct (by decide) _
  | cons hstmt =>
    obtain ⟨token, tokens', rfl, hstarts⟩ := starts_of_statement hstmt
    exact hstarts.endsExpression _

/-! ## Statements -/

section Statements

variable {levels : Nat} {inner : Parser Stmt} {fits : Prop} {tokens rest : List Token}

theorem reads_letVar {keyword name type : Token} (hkeyword : keyword.kind = .kwLet)
    (hname : name.kind = .identifier) (htype : type.kind = .identifier) :
    Reads (stmtOver levels inner) True (keyword :: name :: punct ":" :: type :: rest)
      (.letVar name.text type.text) rest := by
  refine Reads.current_cons_bind ?_
  simp only [hkeyword]
  refine (Reads.expect hkeyword _ _).discard.sure_bind ?_
  refine (Reads.expect hname _ _).sure_bind ?_
  refine (Reads.expectMisc ":" _).discard.sure_bind ?_
  exact (Reads.expect htype _ _).bind_pure fun type => Stmt.letVar name.text type.text

theorem reads_assign {name : Token} {value : Expr} (hname : name.kind = .identifier)
    (hvalue : Reads (expr levels) fits tokens value rest) :
    Reads (stmtOver levels inner) fits (name :: punct "=" :: tokens) (.assign name.text value)
      rest := by
  refine Reads.current_cons_bind ?_
  simp only [hname]
  refine (Reads.expect hname _ _).sure_bind (Reads.current_cons_bind ?_)
  rw [if_pos (by simp)]
  refine (Reads.advance _ _).discard.sure_bind ?_
  exact hvalue.bind_pure fun value => Stmt.assign name.text value

theorem reads_callStmt {name : Token} {args : List Expr} (hname : name.kind = .identifier)
    (hargs : Reads (arguments levels) fits tokens args rest) :
    Reads (stmtOver levels inner) fits (name :: punct "(" :: tokens) (.call name.text args)
      rest := by
  refine Reads.current_cons_bind ?_
  simp only [hname]
  refine (Reads.expect hname _ _).sure_bind (Reads.current_cons_bind ?_)
  rw [if_neg (by simp)]
  refine Reads.current_cons_bind ?_
  rw [if_pos (by simp)]
  refine (Reads.advance _ _).discard.sure_bind ?_
  exact hargs.bind_pure fun args => Stmt.call name.text args

theorem reads_choice {keyword : Token} {choice : Stmt} (hkeyword : keyword.kind = .kwIf)
    (hchoice : Reads (ifElseOver levels inner) fits (keyword :: tokens) choice rest) :
    Reads (stmtOver levels inner) fits (keyword :: tokens) choice rest := by
  refine Reads.current_cons_bind ?_
  simp only [hkeyword]
  exact hchoice

theorem reads_ret {keyword : Token} {value : Expr} (hkeyword : keyword.kind = .kwReturn)
    (hvalue : Reads (expr levels) fits tokens value rest) :
    Reads (stmtOver levels inner) fits (keyword :: tokens) (.ret value) rest := by
  refine Reads.current_cons_bind ?_
  simp only [hkeyword]
  refine (Reads.expect hkeyword _ _).discard.sure_bind ?_
  exact hvalue.bind_pure Stmt.ret

theorem reads_blockStmt {block : Stmt}
    (hblock : Reads (blockOver inner) fits (punct "\x7b" :: tokens) block rest) :
    Reads (stmtOver levels inner) fits (punct "\x7b" :: tokens) block rest := by
  refine Reads.current_cons_bind ?_
  show Reads (if (punct "\x7b").isMisc "\x7b" then blockOver inner else _) _ _ _ _
  rw [if_pos (by simp)]
  exact hblock

theorem reads_item_end (rest : List Token) :
    Reads (itemOver inner) True (punct "\x7d" :: rest) none (punct "\x7d" :: rest) := by
  refine Reads.current_cons_bind ?_
  rw [if_pos (by simp)]
  exact Reads.pure _ _

theorem reads_item {token : Token} {stmt : Stmt} (hstarts : StartsStatement token)
    (hstmt : Reads inner fits (token :: tokens) stmt rest) :
    Reads (itemOver inner) fits (token :: tokens) (some stmt) rest := by
  refine Reads.current_cons_bind ?_
  rw [if_neg (by simp [hstarts.not_close])]
  refine Reads.current_cons_bind ?_
  rw [if_neg hstarts.kind_ne_eof]
  exact hstmt.bind_pure some

theorem reads_braces {stmts : List Stmt}
    (hstmts : Reads (collect (itemOver inner)) fits (tokens ++ punct "\x7d" :: rest) stmts
      (punct "\x7d" :: rest)) :
    Reads (blockOver inner) fits (punct "\x7b" :: (tokens ++ punct "\x7d" :: rest))
      (.block stmts) rest := by
  refine (Reads.expectMisc _ _).discard.sure_bind ?_
  refine hstmts.bind_sure ?_
  exact (Reads.advance _ _).discard.bind_pure fun _ => Stmt.block stmts

/-- A choice whose second branch is read by the parser that its first token selects. -/
theorem reads_ifElse {keyword keyword' : Token} {condition : Expr} {thenBranch elseBranch : Stmt}
    {top top' top'' bound : Nat} {tokens' tokens'' : List Token} (hkeyword : keyword.kind = .kwIf)
    (hcondition : Reads (expr levels) (top ≤ bound) tokens condition tokens')
    (hthen : Reads (blockOver inner) (top' ≤ bound) tokens' thenBranch (keyword' :: tokens''))
    (hkeyword' : keyword'.kind = .kwElse)
    (helse : Reads (if (tokens''.headD .eof).kind = .kwIf then inner else blockOver inner)
      (top'' ≤ bound) tokens'' elseBranch rest) :
    Reads (ifElseOver levels inner) (max top (max top' top'') ≤ bound) (keyword :: tokens)
      (.ifElse condition thenBranch elseBranch) rest := by
  rw [Nat.max_le, Nat.max_le]
  refine (Reads.expect hkeyword _ _).discard.sure_bind ?_
  refine hcondition.bind (hthen.bind ?_)
  refine (Reads.expect hkeyword' _ _).discard.sure_bind (Reads.current_bind ?_)
  split at helse
  · rename_i hif
    rw [if_pos hif]
    exact helse.bind_pure (Stmt.ifElse condition thenBranch)
  · rename_i hif
    rw [if_neg hif]
    exact helse.bind_pure (Stmt.ifElse condition thenBranch)

end Statements

/-! ## Derivations of statements -/

mutual

theorem reads_statement {depth top : Nat} {tokens : List Token} {stmt : Stmt} :
    Statement depth top tokens stmt → ∀ (levels : Nat) {rest : List Token},
      EndsExpression rest →
      Reads (Parser.stmt levels) (top ≤ depth + levels) (tokens ++ rest) stmt rest
  | .letVar hkeyword hname htype, levels, rest, _ =>
    (reads_letVar hkeyword hname htype).congr (by simp)
  | .assign hname hvalue, levels, rest, hrest =>
    reads_assign hname (reads_expression hvalue levels hrest)
  | .call hname hargs, levels, rest, _ => by
    obtain ⟨tokens', rfl, hreads⟩ := reads_args hargs levels rest
    exact reads_callStmt hname hreads
  | .choice hchoice, levels, rest, _ => by
    have hreads := reads_choiceOf hchoice levels rest
    obtain ⟨keyword, tokens', rfl, hkeyword⟩ := starts_of_choice hchoice
    exact reads_choice hkeyword hreads
  | .ret hkeyword hvalue, levels, rest, hrest =>
    reads_ret hkeyword (reads_expression hvalue levels hrest)
  | .block hblock, levels, rest, _ => by
    have hreads := reads_block hblock levels rest
    cases hblock
    exact reads_blockStmt hreads

theorem reads_choiceOf {depth top : Nat} {tokens : List Token} {stmt : Stmt} :
    Choice depth top tokens stmt → ∀ (levels : Nat) (rest : List Token),
      Reads (ifElse levels) (top ≤ depth + levels) (tokens ++ rest) stmt rest
  | .otherwise hkeyword hcondition hthen hkeyword' helse, levels, rest => by
    have hcondition' (rest : List Token) :=
      reads_expression hcondition levels (endsExpression_block hthen rest)
    rw [List.cons_append, List.append_assoc, List.append_assoc, List.cons_append]
    refine reads_ifElse hkeyword (hcondition' _) (reads_block hthen levels _) hkeyword' ?_
    rw [if_neg (kind_block_ne_if helse rest)]
    exact reads_block helse levels rest
  | .another hkeyword hcondition hthen hkeyword' helse, levels, rest => by
    have hcondition' (rest : List Token) :=
      reads_expression hcondition levels (endsExpression_block hthen rest)
    rw [List.cons_append, List.append_assoc, List.append_assoc, List.cons_append]
    refine reads_ifElse hkeyword (hcondition' _) (reads_block hthen levels _) hkeyword' ?_
    obtain ⟨keyword, tokens', rfl, hif⟩ := starts_of_choice helse
    rw [List.cons_append, List.headD_cons, if_pos hif, innerStmt_eq_nested]
    exact Reads.nested levels helse.depth_le fun levels =>
      reads_choice hif (reads_choiceOf helse levels rest)

theorem reads_block {depth top : Nat} {tokens : List Token} {stmt : Stmt} :
    Block depth top tokens stmt → ∀ (levels : Nat) (rest : List Token),
      Reads (block levels) (top ≤ depth + levels) (tokens ++ rest) stmt rest
  | .braces hstmts, levels, rest => by
    rw [List.cons_append, List.append_assoc]
    exact reads_braces (reads_statements hstmts levels rest)

theorem reads_statements {depth top : Nat} {tokens : List Token} {stmts : List Stmt} :
    Statements depth top tokens stmts → ∀ (levels : Nat) (rest : List Token),
      Reads (collect (itemOver (innerStmt levels))) (top ≤ depth + levels)
        (tokens ++ punct "\x7d" :: rest) stmts (punct "\x7d" :: rest)
  | .nil, levels, rest => (Reads.collect_nil (reads_item_end rest)).congr (by simp)
  | .cons hstmt hstmts, levels, rest => by
    have hend := endsExpression_statements hstmts rest
    have hinner := Reads.nested levels hstmt.depth_le fun levels =>
      reads_statement hstmt levels hend
    rw [← innerStmt_eq_nested] at hinner
    obtain ⟨token, tokens', rfl, hstarts⟩ := starts_of_statement hstmt
    rw [List.append_assoc]
    exact (Reads.collect_cons (reads_item hstarts hinner) (by simp)
      (reads_statements hstmts levels rest)).congr Nat.max_le

end

/-! ## Declarations -/

theorem reads_param {tokens : List Token} {param : Param} (hparam : Parameter tokens param)
    (rest : List Token) : Reads Parser.param True (tokens ++ rest) param rest := by
  cases hparam with
  | @typed name _ hname htype =>
    refine (Reads.expect hname _ _).sure_bind ?_
    refine (Reads.expectMisc ":" _).discard.sure_bind ?_
    exact (Reads.expect htype _ _).bind_pure fun type => Param.mk name.text type.text

theorem reads_moreParams {tokens : List Token} {params : List Param}
    (hparams : MoreParams tokens params) (rest : List Token) :
    Reads (collect moreParam) True (tokens ++ punct ")" :: rest) params (punct ")" :: rest) := by
  induction hparams with
  | nil =>
    refine Reads.collect_nil (Reads.current_cons_bind ?_)
    rw [if_neg (by simp)]
    exact Reads.pure _ _
  | @cons tokens tokens' param params hparam hparams ih =>
    have hitem : Reads moreParam True (punct "," :: tokens ++ (tokens' ++ punct ")" :: rest))
        (some param) (tokens' ++ punct ")" :: rest) := by
      refine Reads.current_cons_bind ?_
      rw [if_pos (by simp)]
      refine (Reads.advance _ _).discard.sure_bind ?_
      exact (reads_param hparam _).bind_pure some
    rw [List.cons_append, List.append_assoc, ← List.cons_append]
    exact (Reads.collect_cons hitem (by simp) ih).congr (by simp)

theorem reads_params {tokens : List Token} {params : List Param} (hparams : Params tokens params)
    (rest : List Token) :
    Reads Parser.params True (tokens ++ punct ")" :: rest) params (punct ")" :: rest) := by
  cases hparams with
  | none =>
    refine Reads.current_cons_bind ?_
    rw [if_pos (by simp)]
    exact Reads.pure _ _
  | @some tokens tokens' param params hparam hparams =>
    rw [List.append_assoc]
    refine Reads.current_bind ?_
    have hfirst : ((tokens ++ (tokens' ++ punct ")" :: rest)).headD .eof).isMisc ")" = false := by
      cases hparam with
      | typed hname => simp [Token.isMisc, hname]
    rw [if_neg (by rw [hfirst]; decide)]
    refine (reads_param hparam _).sure_bind ?_
    exact (reads_moreParams hparams rest).bind_pure fun others => param :: others

theorem reads_proto {tokens : List Token} {proto : Prototype} (hproto : Proto tokens proto)
    (rest : List Token) : Reads Parser.proto True (tokens ++ rest) proto rest := by
  cases hproto with
  | @typed name _ tokens params hname hparams htype =>
    simp only [List.cons_append, List.append_assoc, List.nil_append]
    refine (Reads.expect hname _ _).sure_bind ?_
    refine (Reads.expectMisc "(" _).discard.sure_bind ?_
    refine (reads_params hparams _).sure_bind ?_
    refine (Reads.expectMisc ")" _).discard.sure_bind ?_
    refine (Reads.expectMisc ":" _).discard.sure_bind ?_
    exact (Reads.expect htype _ _).bind_pure fun type => Prototype.mk name.text params type.text

theorem reads_declaration {top : Nat} {tokens : List Token} {decl : Decl}
    (hdecl : Declaration top tokens decl) (levels : Nat) (rest : List Token) :
    Reads (decl? levels) (top ≤ levels) (tokens ++ rest) (some decl) rest := by
  cases hdecl with
  | @defined top keyword tokens tokens' proto body hkeyword hproto hbody =>
    have hdef : Reads (definition levels) (top ≤ levels)
        (keyword :: (tokens ++ (tokens' ++ rest))) ⟨proto, some body⟩ rest := by
      refine (Reads.expect hkeyword _ _).discard.sure_bind ?_
      refine (reads_proto hproto _).sure_bind ?_
      have hblock : Reads (block levels) (top ≤ levels) (tokens' ++ rest) body rest :=
        (reads_block hbody levels rest).congr (by rw [Nat.zero_add])
      exact hblock.bind_pure fun body => Decl.mk proto (some body)
    rw [List.cons_append, List.append_assoc]
    refine Reads.current_cons_bind ?_
    simp only [hkeyword]
    exact hdef.bind_sure ((Reads.record _ _).bind_pure fun _ => some _)
  | @external keyword tokens proto hkeyword hproto =>
    have hdecl : Reads externDecl True (keyword :: (tokens ++ rest)) ⟨proto, none⟩ rest := by
      refine (Reads.expect hkeyword _ _).discard.sure_bind ?_
      exact (reads_proto hproto _).bind_pure fun proto => Decl.mk proto none
    refine Reads.congr ?_ (Iff.of_eq (eq_true (Nat.zero_le levels)))
    refine Reads.current_cons_bind ?_
    simp only [hkeyword]
    exact hdecl.bind_sure ((Reads.record _ _).bind_pure fun _ => some _)

theorem reads_declarations {top : Nat} {tokens : List Token} {decls : List Decl}
    (hdecls : Declarations top tokens decls) (levels : Nat) :
    Reads (Parser.decls levels) (top ≤ levels) tokens decls [] := by
  induction hdecls with
  | nil =>
    have hend : Reads (decl? levels) True [] none [] := Reads.current_bind (Reads.pure none [])
    exact (Reads.collect_nil hend).congr (by simp)
  | cons hdecl _ ih =>
    have hitem := reads_declaration hdecl levels
    exact (Reads.collect_cons (hitem _) hdecl.ne_nil ih).congr Nat.max_le

/-- A source whose tokens derive declarations is accepted if the largest index of the derivation
is within the limit, and else it is too deep. -/
theorem parse_of_declarations {top : Nat} {name source : String} {decls : List Decl}
    (hdecls : Declarations top (Token.tokenize source).dropLast decls) :
    (Module.parse name source).1 =
      if top ≤ maxNesting then .ok ⟨name, decls⟩ else .error (.nestingTooDeep maxNesting) := by
  obtain ⟨hok, herror⟩ := reads_declarations hdecls maxNesting _ (State.valid_ofSource source)
    (State.pending_ofSource source)
  by_cases hfits : top ≤ maxNesting
  · obtain ⟨state, hrun, -, -⟩ := hok hfits
    simp [Module.parse, Decl.parseAll, Parser.parse, hrun, hfits, Except.map]
  · obtain ⟨state, hrun⟩ := herror hfits
    simp [Module.parse, Decl.parseAll, Parser.parse, hrun, hfits, Except.map]

end Frontend.Parser
