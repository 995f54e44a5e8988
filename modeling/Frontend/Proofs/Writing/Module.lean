import Frontend.Proofs.Writing.Expr

/-!
# Written statements, declarations and modules

The source text of a canonical module falls into tokens that derive its declarations again,
without their tags.  The lemmas follow the text as those about expressions do.  Line breaks
and indentation are gaps, so a statement derives the same tree wherever it is written.
-/

namespace Frontend.Grammar

open Token

/-- A keyword is written with a blank behind it. -/
theorem words_keyword {keyword : String} (hkeyword : isWord keyword = true) (cs : List Char) :
    words (keyword.toList ++ ' ' :: cs) = ofWord keyword :: words cs := by
  rw [words_word hkeyword rfl, words_space]

/-! ## Statements -/

theorem writes_letVar {name type : String} (hname : isIdentifier name = true)
    (htype : isIdentifier type = true) :
    Writes Statement ("let".toList ++ ' ' :: (name.toList ++ ':' :: ' ' :: type.toList)) 0
      (.letVar name type) := by
  refine ⟨[ofWord "let", ⟨.identifier, name⟩, punct ":", ⟨.identifier, type⟩],
    fun rest hrest => ?_, fun depth => .letVar rfl rfl rfl⟩
  simp only [List.cons_append, List.append_assoc, List.nil_append]
  rw [words_keyword rfl, words_identifier hname rfl, words_colon, words_space,
    words_identifier htype hrest]

theorem writes_assign {target : String} {text : List Char} {levels : Nat} {value : Expr}
    (htarget : isIdentifier target = true) (hvalue : Writes Expression text levels value) :
    Writes Statement (target.toList ++ ' ' :: '=' :: ' ' :: text) levels
      (.assign target value) := by
  obtain ⟨tokens, hspells, hderives⟩ := hvalue
  refine ⟨⟨.identifier, target⟩ :: punct "=" :: tokens, fun rest hrest => ?_,
    fun depth => .assign rfl (hderives depth)⟩
  simp only [List.append_assoc, List.cons_append]
  rw [words_identifier htarget rfl, words_space, words_becomes, hspells rest hrest]

theorem writes_callStmt {callee : String} {text : List Char} {levels : Nat} {args : List Expr}
    (hcallee : isIdentifier callee = true) (hargs : Writes Args ('(' :: text) levels args) :
    Writes Statement (callee.toList ++ '(' :: text) levels (.call callee args) := by
  obtain ⟨tokens, hspells, hderives⟩ := hargs
  refine ⟨⟨.identifier, callee⟩ :: tokens, fun rest hrest => ?_,
    fun depth => .call rfl (hderives depth)⟩
  rw [List.append_assoc, words_identifier hcallee rfl, hspells rest hrest, List.cons_append]

theorem writes_ret {text : List Char} {levels : Nat} {value : Expr}
    (hvalue : Writes Expression text levels value) :
    Writes Statement ("return".toList ++ ' ' :: text) levels (.ret value) := by
  obtain ⟨tokens, hspells, hderives⟩ := hvalue
  refine ⟨ofWord "return" :: tokens, fun rest hrest => ?_,
    fun depth => .ret rfl (hderives depth)⟩
  rw [List.append_assoc, List.cons_append, words_keyword rfl, hspells rest hrest, List.cons_append]

/-! ## Blocks -/

theorem writes_noStatements : Writes Statements [] 0 [] :=
  ⟨[], fun _ _ => rfl, fun _ => .nil⟩

/-- A statement on a line of its own, before further lines. -/
theorem writes_statements {text more : List Char} {levels levels' : Nat} {stmt : Stmt}
    {stmts : List Stmt} (count : Nat) (hstmt : Writes Statement text levels stmt)
    (hstmts : Writes Statements more levels' stmts)
    (hapart : ∀ rest, apart rest = true → apart (more ++ rest) = true) :
    Writes Statements ('\n' :: (List.replicate count ' ' ++ (text ++ more)))
      (max (levels + 1) levels') (stmt :: stmts) := by
  obtain ⟨tokens, hspells, hderives⟩ := hstmt
  obtain ⟨tokens', hspells', hderives'⟩ := hstmts
  refine .intro _ (fun rest hrest => ?_)
    (fun depth => .cons (hderives (depth + 1)) (hderives' depth))
    (fun depth => by omega)
  simp only [List.append_assoc, List.cons_append, words_newline, words_spaces]
  rw [hspells _ (hapart rest hrest), hspells' rest hrest]

/-- The closing brace follows at once or on a line of its own. -/
theorem writes_block {text close : List Char} {levels : Nat} {stmts : List Stmt}
    (hclose : close = [] ∨ ∃ count, close = '\n' :: List.replicate count ' ')
    (hstmts : Writes Statements text levels stmts) :
    Writes Block ('\x7b' :: (text ++ (close ++ ['\x7d']))) levels (.block stmts) := by
  obtain ⟨tokens, hspells, hderives⟩ := hstmts
  refine ⟨_, fun rest hrest => ?_, fun depth => .braces (hderives depth)⟩
  have hwords : words (close ++ '\x7d' :: rest) = punct "\x7d" :: words rest := by
    rcases hclose with rfl | ⟨count, rfl⟩ <;> simp
  have happart : apart (close ++ '\x7d' :: rest) = true := by
    rcases hclose with rfl | ⟨count, rfl⟩ <;> rfl
  simp only [List.append_assoc, List.cons_append, List.nil_append, words_openBrace]
  rw [hspells _ happart, hwords]

/-! ## Choices -/

/-- What follows `else`. -/
def Otherwise (depth top : Nat) (tokens : List Token) (stmt : Stmt) : Prop :=
  Block depth top tokens stmt ∨ Choice (depth + 1) top tokens stmt

theorem writes_choice {text text' text'' : List Char} {levels levels' levels'' : Nat}
    {condition : Expr} {thenBranch elseBranch : Stmt}
    (hcondition : Writes Expression text levels condition)
    (hthen : Writes Block text' levels' thenBranch)
    (helse : Writes Otherwise text'' levels'' elseBranch) :
    Writes Choice ("if".toList ++ ' ' :: (text ++ ' ' ::
        (text' ++ ' ' :: ("else".toList ++ ' ' :: text''))))
      (max levels (max levels' levels'')) (.ifElse condition thenBranch elseBranch) := by
  obtain ⟨tokens, hspells, hderives⟩ := hcondition
  obtain ⟨tokens', hspells', hderives'⟩ := hthen
  obtain ⟨tokens'', hspells'', hderives''⟩ := helse
  have hchoice (depth : Nat) :
      Choice depth (max (depth + levels) (max (depth + levels') (depth + levels'')))
        (ofWord "if" :: (tokens ++ (tokens' ++ ofWord "else" :: tokens'')))
        (.ifElse condition thenBranch elseBranch) := by
    rcases hderives'' depth with hblock | hanother
    · exact .otherwise rfl (hderives depth) (hderives' depth) rfl hblock
    · exact .another rfl (hderives depth) (hderives' depth) rfl hanother
  refine .intro _ (fun rest hrest => ?_) hchoice (fun depth => by omega)
  simp only [List.append_assoc, List.cons_append]
  rw [words_keyword rfl, hspells _ rfl, words_space, hspells' _ rfl, words_space,
    words_keyword rfl, hspells'' rest hrest]

/-- Another choice after `else` is one level deeper. -/
theorem writes_another {text : List Char} {levels : Nat} {stmt : Stmt}
    (hchoice : Writes Choice text levels stmt) : Writes Otherwise text (levels + 1) stmt := by
  obtain ⟨tokens, hspells, hderives⟩ := hchoice
  exact .intro tokens hspells (fun depth => .inr (hderives (depth + 1))) (fun depth => by omega)

/-! ## Trees of statements -/

/-- The text of the statement derives it, whatever the indentation, and as a block or a choice
if it is one. -/
structure WritesStmt (stmt : Stmt) (indentation : Nat) : Prop where
  statement : Writes Statement (stmt.sourceAt indentation).toList stmt.nesting stmt.untagged
  block : stmt.isBlock = true →
    Writes Block (stmt.sourceAt indentation).toList stmt.nesting stmt.untagged
  choice : stmt.isIfElse = true →
    Writes Choice (stmt.sourceAt indentation).toList stmt.nesting stmt.untagged

theorem WritesStmt.otherwise {stmt : Stmt} {indentation : Nat}
    (hstmt : WritesStmt stmt indentation) (hbranch : (stmt.isBlock || stmt.isIfElse) = true) :
    Writes Otherwise (stmt.sourceAt indentation).toList (stmt.branchNesting stmt.nesting)
      stmt.untagged := by
  unfold Stmt.branchNesting
  cases hblock : stmt.isBlock with
  | true => exact (hstmt.block hblock).imp .inl
  | false =>
    rw [hblock, Bool.false_or] at hbranch
    exact writes_another (hstmt.choice hbranch)

/-- The lines of a block as they are written. -/
def linesText (texts : List String) (indentation : Nat) : List Char :=
  texts.flatMap fun text => '\n' :: (List.replicate (2 * indentation) ' ' ++ text.toList)

theorem toList_braces (indentation : Nat) (texts : List String) :
    (Stmt.braces indentation texts).toList =
      '\x7b' :: (linesText texts (indentation + 1) ++
        ((if texts.isEmpty then [] else '\n' :: List.replicate (2 * indentation) ' ') ++
          ['\x7d'])) := by
  unfold Stmt.braces linesText Stmt.indent
  cases texts <;> simp [List.flatMap_map]

theorem apart_linesText (texts : List String) (indentation : Nat) (rest : List Char)
    (hrest : apart rest = true) : apart (linesText texts indentation ++ rest) = true :=
  apart_flatMap _ (fun _ _ => rfl) rest hrest

/-- An assignment as it is written: with its target, or as a call whose value is dropped. -/
theorem writes_assignSource {target : String} {value : Expr}
    (hcanonical : (Stmt.assign target value).isCanonical = true) :
    Writes Statement (Stmt.assignSource target value).toList value.nesting
      (.assign target value.untagged) := by
  simp only [Stmt.isCanonical, Bool.and_eq_true] at hcanonical
  obtain ⟨htarget, hvalue⟩ := hcanonical
  split at htarget
  · rename_i hdiscard
    obtain ⟨callee, args, tag, rfl⟩ : ∃ callee args tag, value = .call callee args tag := by
      cases value with
      | call callee args tag => exact ⟨callee, args, tag, rfl⟩
      | int | float | bool | var | unary | binary => cases htarget
    obtain rfl : target = Stmt.discard := beq_iff_eq.1 hdiscard
    simp only [Expr.isCanonical, Bool.and_eq_true] at hvalue
    have hcall := writes_callStmt hvalue.1 (writes_argsOf args hvalue.2)
    simpa [Stmt.assignSource, Expr.source, Expr.nesting, Expr.untagged, Stmt.call] using hcall
  · rename_i hdiscard
    have hsource : Stmt.assignSource target value = target ++ " = " ++ value.source := by
      unfold Stmt.assignSource
      cases value <;> simp [hdiscard]
    have hassign := writes_assign htarget (writes_expr value hvalue).expression
    simpa [hsource] using hassign

mutual

theorem writes_stmt : (stmt : Stmt) → stmt.isCanonical = true → (indentation : Nat) →
    WritesStmt stmt indentation
  | .letVar name type, hcanonical, _ => by
    simp only [Stmt.isCanonical, Bool.and_eq_true] at hcanonical
    have hlet := writes_letVar hcanonical.1 hcanonical.2
    refine ⟨?_, nofun, nofun⟩
    simpa [Stmt.sourceAt, Stmt.nesting, Stmt.untagged] using hlet
  | .assign _ _, hcanonical, _ => ⟨writes_assignSource hcanonical, nofun, nofun⟩
  | .ifElse condition thenBranch elseBranch, hcanonical, indentation => by
    simp only [Stmt.isCanonical, Bool.and_eq_true] at hcanonical
    obtain ⟨⟨hcondition, hblock, hthen⟩, hbranch, helse⟩ := hcanonical
    have hchoice := writes_choice (writes_expr condition hcondition).expression
      ((writes_stmt thenBranch hthen indentation).block hblock)
      ((writes_stmt elseBranch helse indentation).otherwise hbranch)
    have hnesting : thenBranch.branchNesting thenBranch.nesting = thenBranch.nesting :=
      if_pos hblock
    have hthis : Writes Choice
        ((Stmt.ifElse condition thenBranch elseBranch).sourceAt indentation).toList
        (Stmt.ifElse condition thenBranch elseBranch).nesting
        (Stmt.ifElse condition thenBranch elseBranch).untagged := by
      simpa [Stmt.sourceAt, Stmt.nesting, Stmt.untagged, hblock, hbranch, hnesting] using hchoice
    exact ⟨hthis.imp .choice, nofun, fun _ => hthis⟩
  | .ret value, hcanonical, _ => by
    have hret := writes_ret (writes_expr value hcanonical).expression
    refine ⟨?_, nofun, nofun⟩
    simpa [Stmt.sourceAt, Stmt.nesting, Stmt.untagged] using hret
  | .block stmts, hcanonical, indentation => by
    have hthis : Writes Block ((Stmt.block stmts).sourceAt indentation).toList
        (Stmt.block stmts).nesting (Stmt.block stmts).untagged := by
      rw [Stmt.sourceAt, toList_braces]
      refine writes_block ?_ (writes_statementsOf stmts hcanonical (indentation + 1))
      split
      · exact .inl rfl
      · exact .inr ⟨_, rfl⟩
    exact ⟨hthis.imp .block, fun _ => hthis, nofun⟩

theorem writes_statementsOf : (stmts : List Stmt) → Stmt.areCanonical stmts = true →
    (indentation : Nat) →
    Writes Statements (linesText (Stmt.sourcesAt stmts indentation) indentation)
      (Stmt.nestingOfAll stmts) (Stmt.untaggedAll stmts)
  | [], _, _ => writes_noStatements
  | stmt :: stmts, hcanonical, indentation => by
    simp only [Stmt.areCanonical, Bool.and_eq_true] at hcanonical
    have hstmts := writes_statements (2 * indentation)
      (writes_stmt stmt hcanonical.1 indentation).statement
      (writes_statementsOf stmts hcanonical.2 indentation)
      (apart_linesText (Stmt.sourcesAt stmts indentation) indentation)
    simpa [Stmt.sourcesAt, Stmt.nestingOfAll, Stmt.untaggedAll, linesText] using hstmts

end

/-! ## Prototypes -/

theorem spells_param {param : Param} (hcanonical : param.isCanonical = true) :
    ∃ tokens, Spells param.source.toList tokens ∧ Parameter tokens param := by
  simp only [Param.isCanonical, Bool.and_eq_true] at hcanonical
  refine ⟨[⟨.identifier, param.name⟩, punct ":", ⟨.identifier, param.type⟩],
    fun rest hrest => ?_, .typed rfl rfl⟩
  have htext : param.source.toList = param.name.toList ++ ':' :: ' ' :: param.type.toList := by
    simp [Param.source]
  simp only [htext, List.cons_append, List.append_assoc, List.nil_append]
  rw [words_identifier hcanonical.1 rfl, words_colon, words_space,
    words_identifier hcanonical.2 hrest]

/-- Further parameters as they are written. -/
def moreParamsText (params : List Param) : List Char :=
  (params.map Param.source).flatMap fun text => ", ".toList ++ text.toList

theorem apart_moreParamsText (params : List Param) (rest : List Char) (hrest : apart rest = true) :
    apart (moreParamsText params ++ rest) = true :=
  apart_flatMap _ (fun _ _ => rfl) rest hrest

theorem spells_moreParams {params : List Param} (hcanonical : params.all Param.isCanonical = true) :
    ∃ tokens, Spells (moreParamsText params) tokens ∧ MoreParams tokens params := by
  induction params with
  | nil => exact ⟨[], fun _ _ => rfl, .nil⟩
  | cons param params ih =>
    rw [List.all_cons, Bool.and_eq_true] at hcanonical
    obtain ⟨tokens, hspells, hparam⟩ := spells_param hcanonical.1
    obtain ⟨tokens', hspells', hparams⟩ := ih hcanonical.2
    refine ⟨_, fun rest hrest => ?_, .cons hparam hparams⟩
    show words (',' :: ' ' :: ((param.source.toList ++ moreParamsText params) ++ rest)) = _
    rw [words_comma, words_space, List.append_assoc,
      hspells _ (apart_moreParamsText params rest hrest), hspells' rest hrest]
    simp

theorem spells_params {params : List Param} (hcanonical : params.all Param.isCanonical = true) :
    ∃ tokens, Spells (", ".intercalate (params.map Param.source)).toList tokens ∧
      Params tokens params := by
  cases params with
  | nil => exact ⟨[], fun _ _ => rfl, .none⟩
  | cons param params =>
    rw [List.all_cons, Bool.and_eq_true] at hcanonical
    obtain ⟨tokens, hspells, hparam⟩ := spells_param hcanonical.1
    obtain ⟨tokens', hspells', hparams⟩ := spells_moreParams hcanonical.2
    refine ⟨_, fun rest hrest => ?_, .some hparam hparams⟩
    rw [List.map_cons, toList_intercalate_cons]
    show words ((param.source.toList ++ moreParamsText params) ++ rest) = _
    rw [List.append_assoc, hspells _ (apart_moreParamsText params rest hrest), hspells' rest hrest,
      List.append_assoc]

theorem spells_proto {proto : Prototype} (hcanonical : proto.isCanonical = true) :
    ∃ tokens, Spells proto.source.toList tokens ∧ Proto tokens proto := by
  simp only [Prototype.isCanonical, Bool.and_eq_true] at hcanonical
  obtain ⟨⟨hname, hparams⟩, htype⟩ := hcanonical
  obtain ⟨tokens, hspells, hderives⟩ := spells_params hparams
  refine ⟨⟨.identifier, proto.name⟩ :: punct "(" ::
      (tokens ++ [punct ")", punct ":", ⟨.identifier, proto.returnType⟩]),
    fun rest hrest => ?_, .typed rfl hderives rfl⟩
  have htext : proto.source.toList = proto.name.toList ++ '(' ::
      ((", ".intercalate (proto.params.map Param.source)).toList ++
        ')' :: ':' :: ' ' :: proto.returnType.toList) := by
    simp [Prototype.source]
  simp only [htext, List.cons_append, List.append_assoc, List.nil_append]
  rw [words_identifier hname rfl, words_open, hspells _ rfl, words_close, words_colon, words_space,
    words_identifier htype hrest]

/-! ## Declarations -/

theorem spells_external {proto : Prototype} (hproto : proto.isCanonical = true) :
    ∃ tokens, Spells ("extern".toList ++ ' ' :: proto.source.toList) tokens ∧
      Declaration 0 tokens ⟨proto, none⟩ := by
  obtain ⟨tokens, hspells, hproto⟩ := spells_proto hproto
  refine ⟨ofWord "extern" :: tokens, fun rest hrest => ?_, .external rfl hproto⟩
  rw [List.append_assoc, List.cons_append, words_keyword rfl, hspells rest hrest, List.cons_append]

theorem spells_defined {proto : Prototype} {text : List Char} {levels : Nat} {body : Stmt}
    (hproto : proto.isCanonical = true) (hbody : Writes Block text levels body) :
    ∃ tokens, Spells ("def".toList ++ ' ' :: (proto.source.toList ++ ' ' :: text)) tokens ∧
      Declaration levels tokens ⟨proto, some body⟩ := by
  obtain ⟨tokens, hspells, hproto⟩ := spells_proto hproto
  obtain ⟨tokens', hspells', hderives⟩ := hbody
  have hbody := hderives 0
  rw [Nat.zero_add] at hbody
  refine ⟨ofWord "def" :: (tokens ++ tokens'), fun rest hrest => ?_, .defined rfl hproto hbody⟩
  simp only [List.cons_append, List.append_assoc]
  rw [words_keyword rfl, hspells _ rfl, words_space, hspells' rest hrest]

theorem spells_decl {decl : Decl} (hcanonical : decl.isCanonical = true) :
    ∃ tokens, Spells decl.source.toList tokens ∧
      Declaration decl.nesting tokens decl.untagged := by
  obtain ⟨proto, body⟩ := decl
  simp only [Decl.isCanonical, Bool.and_eq_true] at hcanonical
  cases body with
  | none =>
    have htext : (Decl.mk proto none).source.toList =
        "extern".toList ++ ' ' :: proto.source.toList := by
      simp [Decl.source]
    rw [htext]
    exact spells_external hcanonical.1
  | some body =>
    simp only [Option.all_some, Bool.and_eq_true] at hcanonical
    have htext : (Decl.mk proto (some body)).source.toList =
        "def".toList ++ ' ' :: (proto.source.toList ++ ' ' :: (body.sourceAt 0).toList) := by
      simp [Decl.source, Stmt.blockSource, hcanonical.2.1]
    have hnesting : (Decl.mk proto (some body)).nesting = body.nesting := if_pos hcanonical.2.1
    rw [htext, hnesting]
    exact spells_defined hcanonical.1 ((writes_stmt body hcanonical.2.2 0).block hcanonical.2.1)

/-- Further declarations as they are written. -/
def moreDeclsText (decls : List Decl) : List Char :=
  (decls.map Decl.source).flatMap fun text => "\n\n".toList ++ text.toList

theorem apart_moreDeclsText (decls : List Decl) (rest : List Char) (hrest : apart rest = true) :
    apart (moreDeclsText decls ++ rest) = true :=
  apart_flatMap _ (fun _ _ => rfl) rest hrest

theorem spells_moreDecls {decls : List Decl} (hcanonical : decls.all Decl.isCanonical = true) :
    ∃ tokens, Spells (moreDeclsText decls) tokens ∧
      Declarations (Module.nestingOfDecls decls) tokens (decls.map Decl.untagged) := by
  induction decls with
  | nil => exact ⟨[], fun _ _ => rfl, .nil⟩
  | cons decl decls ih =>
    rw [List.all_cons, Bool.and_eq_true] at hcanonical
    obtain ⟨tokens, hspells, hdecl⟩ := spells_decl hcanonical.1
    obtain ⟨tokens', hspells', hdecls⟩ := ih hcanonical.2
    refine ⟨_, fun rest hrest => ?_, .cons hdecl hdecls⟩
    show words ('\n' :: '\n' :: ((decl.source.toList ++ moreDeclsText decls) ++ rest)) = _
    rw [words_newline, words_newline, List.append_assoc,
      hspells _ (apart_moreDeclsText decls rest hrest), hspells' rest hrest, List.append_assoc]

/-- The text of a canonical module derives its declarations without their tags, as many levels
deep as the module nests. -/
theorem declarations_of_source {module : Module} (hcanonical : module.isCanonical = true) :
    Declarations module.nesting (tokenize module.source).dropLast module.untagged.decls := by
  obtain ⟨name, decls⟩ := module
  show Declarations _ (words _) _
  cases decls with
  | nil =>
    have hsource : (Module.mk name []).source.toList = [] := by simp [Module.source]
    rw [hsource, words_of_skipGap_nil rfl]
    exact .nil
  | cons decl decls =>
    simp only [Module.isCanonical, List.all_cons, Bool.and_eq_true] at hcanonical
    obtain ⟨tokens, hspells, hdecl⟩ := spells_decl hcanonical.1
    obtain ⟨tokens', hspells', hdecls⟩ := spells_moreDecls hcanonical.2
    have hsource : (Module.mk name (decl :: decls)).source.toList =
        decl.source.toList ++ moreDeclsText decls := by
      rw [Module.source, List.map_cons, toList_intercalate_cons, moreDeclsText]
    have hapart : apart (moreDeclsText decls) = true := by
      have happended := apart_moreDeclsText decls [] rfl
      rwa [List.append_nil] at happended
    rw [hsource, hspells _ hapart, hspells'.words_eq]
    exact .cons hdecl hdecls

end Frontend.Grammar
