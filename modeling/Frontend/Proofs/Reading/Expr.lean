import Frontend.Proofs.Reading.Basic

/-!
# The parser accepts what the grammar derives

The parsers decide by the current token alone and never go back.  What makes this
complete is what can follow: a variable must not be followed by a parenthesis, and a
chain not by an operator.  `EndsPrimary` and `EndsExpression` say so of the tokens
that are left.

The first groups give the parsers one by one, each with what the parsers inside it
read.  The last ones are inductions over derivations: a derivation with the largest
index `top` is read by the parser that has `levels` levels at depth `depth` exactly if
`top ≤ depth + levels`, and otherwise ends in `nestingTooDeep`.
-/

namespace Frontend.Parser

open Grammar

/-! ## What can follow -/

/-- The tokens do not begin with a parenthesis, so a name before them is no call. -/
def EndsPrimary (tokens : List Token) : Prop :=
  (tokens.headD .eof).isMisc "(" = false

/-- The tokens begin neither with a parenthesis nor with an operator. -/
def EndsExpression (tokens : List Token) : Prop :=
  EndsPrimary tokens ∧ (tokens.headD .eof).precedence < 0

theorem endsExpression_punct {text : String} (htext : text ≠ "(") (tokens : List Token) :
    EndsExpression (punct text :: tokens) := by
  constructor
  · simpa [EndsPrimary] using htext
  · simp [Token.precedence, punct]

/-- A token that is neither an operator nor punctuation ends an expression. -/
theorem endsExpression_cons {token : Token} (hmisc : token.kind ≠ .misc) (hop : token.kind ≠ .op)
    (tokens : List Token) : EndsExpression (token :: tokens) := by
  constructor
  · simp [EndsPrimary, Token.isMisc, hmisc]
  · simp [Token.precedence, hop]

theorem precedence_nonneg {operator : Token} (hkind : operator.kind = .op)
    (hlexed : operator.Lexed) : 0 ≤ operator.precedence := by
  have hall : ∀ text ∈ Operator.all, 0 ≤ Operator.precedence text := by decide
  have hoperator : operator.text ∈ Operator.all := by
    simpa only [Token.Lexed, hkind] using hlexed
  simpa [Token.precedence, hkind] using hall _ hoperator

/-- The links of a chain end the primary before them, since they begin with an operator. -/
theorem endsPrimary_links {depth top : Nat} {tokens rest : List Token}
    {links : List (String × Expr)} (hlinks : Links depth top tokens links)
    (hrest : EndsExpression rest) : EndsPrimary (tokens ++ rest) := by
  cases hlinks with
  | nil => exact hrest.1
  | cons hkind => simp [EndsPrimary, Token.isMisc, hkind]

/-- The arguments after the first one, and the parenthesis that closes them, end an
expression. -/
theorem endsExpression_moreArgs {depth top : Nat} {tokens : List Token} {args : List Expr}
    (hargs : MoreArgs depth top tokens args) (rest : List Token) :
    EndsExpression (tokens ++ punct ")" :: rest) := by
  cases hargs with
  | nil => exact endsExpression_punct (by decide) _
  | cons => exact endsExpression_punct (by decide) _

/-! ## Primaries -/

section Primaries

variable {inner : Parser Expr} {fits : Prop} {tokens rest : List Token}

theorem reads_var {name : Token} (hname : name.kind = .identifier) (hrest : EndsPrimary rest) :
    Reads (primaryOver inner) True (name :: rest) (.var name.text none) rest := by
  refine Reads.current_cons_bind ?_
  simp only [hname]
  refine (Reads.expect hname _ _).sure_bind (Reads.current_bind ?_)
  rw [if_neg (by rw [hrest]; decide)]
  exact Reads.pure _ _

theorem reads_call {name : Token} {args : List Expr} (hname : name.kind = .identifier)
    (hargs : Reads (argumentsOver inner) fits tokens args rest) :
    Reads (primaryOver inner) fits (name :: punct "(" :: tokens) (.call name.text args none)
      rest := by
  refine Reads.current_cons_bind ?_
  simp only [hname]
  refine (Reads.expect hname _ _).sure_bind (Reads.current_cons_bind ?_)
  rw [if_pos (by simp)]
  refine (Reads.advance _ _).discard.sure_bind ?_
  exact hargs.bind_pure fun args => Expr.call name.text args none

theorem reads_int {token : Token} (hkind : token.kind = .int)
    (hvalue : Text.decimalValue token.text.toList < 2 ^ 31) :
    Reads (primaryOver inner) True (token :: rest)
      (.int (Text.decimalValue token.text.toList) none) rest := by
  refine Reads.current_cons_bind ?_
  simp only [hkind]
  have hliteral : Reads intLiteral True (token :: rest)
      (Text.decimalValue token.text.toList : Int) rest := by
    refine (Reads.expect hkind _ _).sure_bind ?_
    rw [if_pos hvalue]
    exact Reads.pure _ _
  exact hliteral.bind_pure fun value => Expr.int value none

theorem reads_float {token : Token} {value : Binary64} (hkind : token.kind = .float)
    (hvalue : Binary64.ofText? token.text = some value) (hfinite : value.isFinite = true) :
    Reads (primaryOver inner) True (token :: rest) (.float value none) rest := by
  refine Reads.current_cons_bind ?_
  simp only [hkind]
  have hliteral : Reads floatLiteral True (token :: rest) value rest := by
    refine (Reads.expect hkind _ _).sure_bind ?_
    have hfilter : (Binary64.ofText? token.text).filter Binary64.isFinite = some value := by
      rw [hvalue, Option.filter_some_pos hfinite]
    rw [hfilter]
    exact Reads.pure _ _
  exact hliteral.bind_pure fun value => Expr.float value none

theorem reads_bool {token : Token} (hkind : token.kind = .bool) :
    Reads (primaryOver inner) True (token :: rest) (.bool (token.text == "true") none) rest := by
  refine Reads.of_lexed fun hlexed => Reads.current_cons_bind ?_
  have htext : token.text = "true" ∨ token.text = "false" := by
    simpa only [Token.Lexed, hkind] using hlexed
  simp only [hkind]
  have hliteral : Reads boolLiteral True (token :: rest) (token.text == "true") rest := by
    refine (Reads.expect hkind _ _).sure_bind ?_
    rcases htext with htext | htext <;> rw [htext] <;> exact Reads.pure _ _
  exact hliteral.bind_pure fun value => Expr.bool value none

theorem reads_paren {expr : Expr}
    (hexpr : Reads (exprOver inner) fits (tokens ++ punct ")" :: rest) expr (punct ")" :: rest)) :
    Reads (primaryOver inner) fits (punct "(" :: (tokens ++ punct ")" :: rest)) expr rest := by
  refine Reads.current_cons_bind ?_
  show Reads (if (punct "(").isMisc "(" then parenthesizedOver inner else _) _ _ _ _
  rw [if_pos (by simp)]
  refine (Reads.expectMisc "(" _).discard.sure_bind ?_
  refine hexpr.bind_sure ?_
  exact (Reads.expectMisc ")" rest).discard.bind_pure fun _ => expr

theorem reads_unary {operand : Expr} (hoperand : Reads inner fits tokens operand rest) :
    Reads (primaryOver inner) fits (minus :: tokens) (.unary "-" operand none) rest := by
  refine Reads.current_cons_bind ?_
  show Reads (if minus.isOp "-" then unaryOver inner else _) _ _ _ _
  rw [if_pos (by decide)]
  refine (Reads.expect rfl _ _).sure_bind ?_
  exact hoperand.bind_pure fun operand => Expr.unary "-" operand none

end Primaries

/-! ## Chains and arguments -/

theorem reads_link_end {primary : Parser Expr} {rest : List Token}
    (hrest : EndsExpression rest) : Reads (linkOver primary 0) True rest none rest := by
  refine Reads.current_bind ?_
  rw [if_pos hrest.2]
  exact Reads.pure _ _

theorem reads_link {primary : Parser Expr} {fits : Prop} {operator : Token} {operand : Expr}
    {tokens rest : List Token} (hkind : operator.kind = .op)
    (hoperand : Reads primary fits tokens operand rest) :
    Reads (linkOver primary 0) fits (operator :: tokens) (some (operator.text, operand)) rest := by
  refine Reads.of_lexed fun hlexed => Reads.current_cons_bind ?_
  have hprecedence := precedence_nonneg hkind hlexed
  rw [if_neg (by simpa using hprecedence)]
  refine (Reads.advance _ _).sure_bind ?_
  exact hoperand.bind_pure fun operand => some (operator.text, operand)

theorem reads_chain {primary : Parser Expr} {fits fits' : Prop} {first : Expr}
    {links : List (String × Expr)} {tokens tokens' rest : List Token}
    (hfirst : Reads primary fits tokens first tokens')
    (hlinks : Reads (collect (linkOver primary 0)) fits' tokens' links rest) :
    Reads (exprOver primary) (fits ∧ fits') tokens (.ofChain first links) rest := by
  refine hfirst.bind ?_
  exact hlinks.bind_pure (Expr.ofChain first)

theorem reads_moreArg_end {inner : Parser Expr} (rest : List Token) :
    Reads (moreArgOver inner) True (punct ")" :: rest) none (punct ")" :: rest) := by
  refine Reads.current_cons_bind ?_
  rw [if_pos (by simp)]
  exact Reads.pure _ _

theorem reads_moreArg {inner : Parser Expr} {fits : Prop} {arg : Expr} {tokens rest : List Token}
    (harg : Reads (exprOver inner) fits tokens arg rest) :
    Reads (moreArgOver inner) fits (punct "," :: tokens) (some arg) rest := by
  refine Reads.current_cons_bind ?_
  rw [if_neg (by simp)]
  refine Reads.current_cons_bind ?_
  rw [if_neg (by simp)]
  refine (Reads.advance _ _).discard.sure_bind ?_
  exact harg.bind_pure some

theorem reads_arguments {inner : Parser Expr} {fits fits' : Prop} {arg : Expr}
    {args : List Expr} {tokens tokens' rest : List Token}
    (hfirst : (tokens.headD .eof).isMisc ")" = false)
    (harg : Reads (exprOver inner) fits tokens arg tokens')
    (hargs : Reads (collect (moreArgOver inner)) fits' tokens' args (punct ")" :: rest)) :
    Reads (argumentsOver inner) (fits ∧ fits') tokens (arg :: args) rest := by
  refine Reads.current_bind ?_
  rw [if_neg (by rw [hfirst]; decide)]
  refine harg.bind (hargs.bind_sure ((Reads.pure _ _).sure_bind ?_))
  exact (Reads.expectMisc ")" rest).discard.bind_pure fun _ => arg :: args

theorem reads_no_arguments {inner : Parser Expr} (rest : List Token) :
    Reads (argumentsOver inner) True (punct ")" :: rest) [] rest := by
  refine Reads.current_cons_bind ?_
  rw [if_pos (by simp)]
  refine (Reads.pure _ _).sure_bind ?_
  exact (Reads.expectMisc ")" rest).discard.bind_pure fun _ => []

/-! ## Derivations of expressions -/

theorem exprOver_innerPrimary (levels : Nat) :
    exprOver (innerPrimary levels) = nested expr levels := by
  cases levels <;> rfl

/-- An expression never begins with the parenthesis that closes an argument list. -/
theorem not_close_of_expression {depth top : Nat} {tokens : List Token} {expr : Expr}
    (hexpr : Expression depth top tokens expr) (rest : List Token) :
    ((tokens ++ rest).headD .eof).isMisc ")" = false := by
  obtain ⟨hfirst, -⟩ := hexpr
  cases hfirst with
  | var hkind | call hkind | int hkind | float hkind | bool hkind =>
    simp [Token.isMisc, hkind]
  | paren | unary => rfl

mutual

/-- A derived primary is read if the levels reach its largest index. -/
theorem reads_primary {depth top : Nat} {tokens : List Token} {expr : Expr} :
    Primary depth top tokens expr → ∀ (levels : Nat) {rest : List Token}, EndsPrimary rest →
      Reads (primary levels) (top ≤ depth + levels) (tokens ++ rest) expr rest
  | .var hname, levels, rest, hrest => (reads_var hname hrest).congr (by simp)
  | .call hname hargs, levels, rest, hrest => by
    obtain ⟨tokens', rfl, hreads⟩ := reads_args hargs levels rest
    exact reads_call hname hreads
  | .int hkind hvalue, levels, rest, hrest => (reads_int hkind hvalue).congr (by simp)
  | .float hkind hvalue hfinite, levels, rest, hrest =>
    (reads_float hkind hvalue hfinite).congr (by simp)
  | .bool hkind, levels, rest, hrest => (reads_bool hkind).congr (by simp)
  | .paren hexpr, levels, rest, hrest => by
    have hclose : EndsExpression (punct ")" :: rest) := endsExpression_punct (by decide) _
    have hinner := Reads.nested levels hexpr.depth_le fun levels =>
      reads_expression hexpr levels hclose
    rw [← exprOver_innerPrimary] at hinner
    rw [List.cons_append, List.append_assoc]
    exact reads_paren hinner
  | .unary hoperand, levels, rest, hrest => by
    have hinner := Reads.nested levels hoperand.depth_le fun levels =>
      reads_primary hoperand levels hrest
    rw [← innerPrimary_eq_nested] at hinner
    exact reads_unary hinner

theorem reads_expression {depth top : Nat} {tokens : List Token} {expr : Expr} :
    Expression depth top tokens expr → ∀ (levels : Nat) {rest : List Token},
      EndsExpression rest →
      Reads (Parser.expr levels) (top ≤ depth + levels) (tokens ++ rest) expr rest
  | .chain hfirst hlinks, levels, rest, hrest => by
    have hprimary := reads_primary hfirst levels (endsPrimary_links hlinks hrest)
    rw [List.append_assoc]
    exact (reads_chain hprimary (reads_links hlinks levels hrest)).congr Nat.max_le

theorem reads_links {depth top : Nat} {tokens : List Token} {links : List (String × Expr)} :
    Links depth top tokens links → ∀ (levels : Nat) {rest : List Token}, EndsExpression rest →
      Reads (collect (linkOver (primary levels) 0)) (top ≤ depth + levels) (tokens ++ rest) links
        rest
  | .nil, levels, rest, hrest => (Reads.collect_nil (reads_link_end hrest)).congr (by simp)
  | .cons hkind hoperand hlinks, levels, rest, hrest => by
    have hprimary := reads_primary hoperand levels (endsPrimary_links hlinks hrest)
    have hlink := reads_link hkind hprimary
    rw [List.cons_append, List.append_assoc, ← List.cons_append]
    exact (Reads.collect_cons hlink (by simp) (reads_links hlinks levels hrest)).congr Nat.max_le

/-- The arguments of a call begin with a parenthesis, and the rest of them is read. -/
theorem reads_args {depth top : Nat} {tokens : List Token} {args : List Expr} :
    Args depth top tokens args → ∀ (levels : Nat) (rest : List Token),
      ∃ tokens', tokens = punct "(" :: tokens' ∧
        Reads (arguments levels) (top ≤ depth + levels) (tokens' ++ rest) args rest
  | .none, levels, rest => ⟨_, rfl, (reads_no_arguments rest).congr (by simp)⟩
  | .some harg hargs, levels, rest => by
    refine ⟨_, rfl, ?_⟩
    have hend := endsExpression_moreArgs hargs rest
    have hfirst := Reads.nested levels harg.depth_le fun levels =>
      reads_expression harg levels hend
    rw [← exprOver_innerPrimary] at hfirst
    have hothers := reads_moreArgs hargs levels rest
    have hreads := reads_arguments (not_close_of_expression harg _) hfirst hothers
    rw [List.append_assoc, List.append_assoc]
    exact hreads.congr Nat.max_le

theorem reads_moreArgs {depth top : Nat} {tokens : List Token} {args : List Expr} :
    MoreArgs depth top tokens args → ∀ (levels : Nat) (rest : List Token),
      Reads (collect (moreArgOver (innerPrimary levels))) (top ≤ depth + levels)
        (tokens ++ punct ")" :: rest) args (punct ")" :: rest)
  | .nil, levels, rest => (Reads.collect_nil (reads_moreArg_end rest)).congr (by simp)
  | .cons harg hargs, levels, rest => by
    have hend := endsExpression_moreArgs hargs rest
    have hfirst := Reads.nested levels harg.depth_le fun levels =>
      reads_expression harg levels hend
    rw [← exprOver_innerPrimary] at hfirst
    have hitem := reads_moreArg hfirst
    rw [List.cons_append, List.append_assoc, ← List.cons_append]
    exact (Reads.collect_cons hitem (by simp) (reads_moreArgs hargs levels rest)).congr Nat.max_le

end

end Frontend.Parser
