import Frontend.Expr.Parser
import Frontend.Proofs.Deriving.Basic

/-!
# What the parsers of expressions derive

Each parser is taken with the contract of the parser of a primary one level further
down.  The recursion on the levels, in `derives_innerPrimary`, then gives all of them:
with `levels` levels at depth `depth`, no index exceeds `depth + levels`.
-/

namespace Frontend.Parser

open Grammar

/-! ## Literals -/

theorem ensures_intLiteral (tokens : List Token) :
    Ensures intLiteral tokens fun value rest =>
      ∃ token, tokens = token :: rest ∧ token.kind = .int ∧
        Text.decimalValue token.text.toList < 2 ^ 31 ∧
        value = Text.decimalValue token.text.toList := by
  refine (Ensures.expect (by decide) _ tokens).bind fun token rest hpost => ?_
  obtain ⟨rfl, hkind⟩ := hpost
  dsimp only
  split
  · rename_i hvalue
    exact Ensures.pure ⟨token, rfl, hkind, hvalue, rfl⟩
  · exact Ensures.throw rfl

theorem ensures_floatLiteral (tokens : List Token) :
    Ensures floatLiteral tokens fun value rest =>
      ∃ token, tokens = token :: rest ∧ token.kind = .float ∧
        Binary64.ofText? token.text = some value ∧ value.isFinite = true := by
  refine (Ensures.expect (by decide) _ tokens).bind fun token rest hpost => ?_
  obtain ⟨rfl, hkind⟩ := hpost
  split
  · rename_i value hfilter
    obtain ⟨hvalue, hfinite⟩ := Option.filter_eq_some_iff.1 hfilter
    exact Ensures.pure ⟨token, rfl, hkind, hvalue, hfinite⟩
  · exact Ensures.throw rfl

theorem ensures_boolLiteral (tokens : List Token) :
    Ensures boolLiteral tokens fun value rest =>
      ∃ token, tokens = token :: rest ∧ token.kind = .bool ∧ value = (token.text == "true") := by
  refine (Ensures.expect (by decide) _ tokens).bind fun token rest hpost => ?_
  obtain ⟨rfl, hkind⟩ := hpost
  split
  · rename_i htrue
    exact Ensures.pure ⟨token, rfl, hkind, htrue.symm⟩
  · rename_i hfalse
    split
    · exact Ensures.pure ⟨token, rfl, hkind, (Bool.eq_false_iff.2 hfalse).symm⟩
    · exact Ensures.throw rfl

/-! ## Chains -/

/-- Only an operator has a precedence. -/
theorem kind_of_precedence {token : Token} (hprecedence : ¬token.precedence < 0) :
    token.kind = .op := by
  by_cases hkind : token.kind = .op
  · exact hkind
  · exact absurd (by simp [Token.precedence, hkind]) hprecedence

section Chains

variable {primary : Parser Expr} {depth bound : Nat}

theorem ensures_linkOver (hprimary : Derives primary (Primary depth) bound)
    (tokens : List Token) :
    Ensures (linkOver primary 0) tokens
      (Round (fun used link => ∃ top operator used', used = operator :: used' ∧
          operator.kind = .op ∧ link.1 = operator.text ∧ top ≤ bound ∧
          Primary depth top used' link.2)
        (fun _ => True) tokens) := by
  refine Ensures.current_bind ?_
  split
  · exact Ensures.pure ⟨rfl, trivial⟩
  · rename_i hprecedence
    have hkind := kind_of_precedence hprecedence
    cases tokens with
    | nil => exact absurd hkind (by decide)
    | cons first tokens =>
      refine (Ensures.advance first tokens).bind fun operator rest hpost => ?_
      obtain ⟨rfl, rfl⟩ := hpost
      refine (hprimary _).bind fun operand rest hpost => ?_
      obtain ⟨top, used, hused, htop, hoperand⟩ := hpost
      refine Ensures.pure ⟨operator :: used, by simp, ?_, top, operator, used, rfl, hkind,
        rfl, htop, hoperand⟩
      rw [List.cons_append, ← hused]

theorem links_cons {used used' : List Token} {link : String × Expr} {links : List (String × Expr)}
    (hlink : ∃ top operator used', used = operator :: used' ∧ operator.kind = .op ∧
      link.1 = operator.text ∧ top ≤ bound ∧ Primary depth top used' link.2)
    (hlinks : Within (Links depth) bound used' links) :
    Within (Links depth) bound (used ++ used') (link :: links) := by
  obtain ⟨top, operator, used, rfl, hkind, hlink, htop, hoperand⟩ := hlink
  obtain ⟨top', htop', hlinks⟩ := hlinks
  obtain ⟨text, operand⟩ := link
  subst hlink
  exact ⟨max top top', Nat.max_le.2 ⟨htop, htop'⟩, .cons hkind hoperand hlinks⟩

theorem derives_exprOver (hprimary : Derives primary (Primary depth) bound) :
    Derives (exprOver primary) (Expression depth) bound := by
  intro tokens
  refine (hprimary tokens).bind fun first rest hpost => ?_
  obtain ⟨top, used, rfl, htop, hfirst⟩ := hpost
  have hnil : Within (Links depth) bound [] [] :=
    ⟨depth, Nat.le_trans hfirst.depth_le htop, .nil⟩
  have hlinks := Ensures.collect _ hnil links_cons (ensures_linkOver hprimary) rest
  refine hlinks.bind fun links rest' hpost => ?_
  obtain ⟨-, used', rfl, top', htop', hlinks⟩ := hpost
  refine Ensures.pure ⟨max top top', used ++ used', ?_, Nat.max_le.2 ⟨htop, htop'⟩,
    .chain hfirst hlinks⟩
  rw [List.append_assoc]

end Chains

/-! ## Primaries -/

section Primaries

variable {inner : Parser Expr} {depth bound : Nat}

theorem ensures_moreArgOver (hexpr : Derives (exprOver inner) (Expression (depth + 1)) bound)
    (tokens : List Token) :
    Ensures (moreArgOver inner) tokens
      (Round (fun used arg => ∃ top used', used = punct "," :: used' ∧ top ≤ bound ∧
          Expression (depth + 1) top used' arg)
        (fun _ => True) tokens) := by
  refine Ensures.current_bind ?_
  split
  · exact Ensures.pure ⟨rfl, trivial⟩
  · refine Ensures.current_bind ?_
    dsimp only
    split
    · exact Ensures.unexpected_bind _
    · rename_i hcomma
      obtain ⟨rest, rfl⟩ := exists_of_isMisc (by simpa using hcomma)
      refine (Ensures.discard_advance _ _).bind fun _ rest' hrest => ?_
      subst hrest
      refine (hexpr _).bind fun arg rest hpost => ?_
      obtain ⟨top, used, rfl, htop, harg⟩ := hpost
      exact Ensures.pure ⟨punct "," :: used, by simp, rfl, top, used, rfl, htop, harg⟩

theorem moreArgs_cons {used used' : List Token} {arg : Expr} {args : List Expr}
    (harg : ∃ top used', used = punct "," :: used' ∧ top ≤ bound ∧
      Expression (depth + 1) top used' arg)
    (hargs : Within (MoreArgs depth) bound used' args) :
    Within (MoreArgs depth) bound (used ++ used') (arg :: args) := by
  obtain ⟨top, used, rfl, htop, harg⟩ := harg
  obtain ⟨top', htop', hargs⟩ := hargs
  exact ⟨max top top', Nat.max_le.2 ⟨htop, htop'⟩, .cons harg hargs⟩

theorem derives_argumentsOver (hdepth : depth ≤ bound)
    (hexpr : Derives (exprOver inner) (Expression (depth + 1)) bound) :
    Derives (argumentsOver inner) (fun top used args => Args depth top (punct "(" :: used) args)
      bound := by
  intro tokens
  refine Ensures.current_bind ?_
  dsimp only
  split
  · refine Ensures.pure_bind ?_
    refine (Ensures.discard (Ensures.expectMisc ")" _)).bind fun _ rest hrest => ?_
    subst hrest
    exact Ensures.pure ⟨depth, [punct ")"], rfl, hdepth, .none⟩
  · refine (hexpr _).bind fun arg rest hpost => ?_
    obtain ⟨top, used, rfl, htop, harg⟩ := hpost
    have hnil : Within (MoreArgs depth) bound [] [] := ⟨depth, hdepth, .nil⟩
    have hothers := Ensures.collect _ hnil moreArgs_cons (ensures_moreArgOver hexpr) rest
    refine hothers.bind fun args rest' hpost => ?_
    obtain ⟨-, used', rfl, top', htop', hargs⟩ := hpost
    refine Ensures.pure_bind ?_
    refine (Ensures.discard (Ensures.expectMisc ")" _)).bind fun _ rest hrest => ?_
    subst hrest
    exact Ensures.pure ⟨max top top', used ++ (used' ++ [punct ")"]), by simp,
      Nat.max_le.2 ⟨htop, htop'⟩, .some harg hargs⟩

theorem derives_identifierOrCallOver (hdepth : depth ≤ bound)
    (hexpr : Derives (exprOver inner) (Expression (depth + 1)) bound) :
    Derives (identifierOrCallOver inner) (Primary depth) bound := by
  intro tokens
  refine (Ensures.expect (by decide) _ tokens).bind fun name rest hpost => ?_
  obtain ⟨rfl, hname⟩ := hpost
  refine Ensures.current_bind ?_
  split
  · rename_i hmisc
    obtain ⟨rest, rfl⟩ := exists_of_isMisc hmisc
    refine (Ensures.discard_advance _ _).bind fun _ rest' hrest => ?_
    subst hrest
    refine (derives_argumentsOver hdepth hexpr _).bind fun args rest hpost => ?_
    obtain ⟨top, used, rfl, htop, hargs⟩ := hpost
    exact Ensures.pure ⟨top, name :: punct "(" :: used, rfl, htop, .call hname hargs⟩
  · exact Ensures.pure ⟨depth, [name], rfl, hdepth, .var hname⟩

theorem derives_parenthesizedOver
    (hexpr : Derives (exprOver inner) (Expression (depth + 1)) bound) :
    Derives (parenthesizedOver inner) (Primary depth) bound := by
  intro tokens
  refine (Ensures.discard (Ensures.expectMisc "(" _)).bind fun _ rest hrest => ?_
  subst hrest
  refine (hexpr _).bind fun expr rest hpost => ?_
  obtain ⟨top, used, rfl, htop, hexpr⟩ := hpost
  refine (Ensures.discard (Ensures.expectMisc ")" _)).bind fun _ rest hrest => ?_
  subst hrest
  exact Ensures.pure ⟨top, punct "(" :: (used ++ [punct ")"]), by simp, htop, .paren hexpr⟩

theorem eq_minus_of_isOp {token : Token} (hminus : token.isOp "-" = true) : token = minus := by
  cases token
  simp_all [Token.isOp, minus]

/-- The only operator that is taken in front of a primary is the minus sign. -/
theorem derives_unaryOver {tokens : List Token} (hinner : Derives inner (Primary (depth + 1)) bound)
    (hminus : (tokens.headD .eof).isOp "-" = true) :
    Ensures (unaryOver inner) tokens fun expr rest =>
      ∃ top used, tokens = used ++ rest ∧ top ≤ bound ∧ Primary depth top used expr := by
  refine (Ensures.expect (by decide) _ tokens).bind fun operator rest hpost => ?_
  obtain ⟨rfl, hkind⟩ := hpost
  obtain rfl : operator = minus := eq_minus_of_isOp hminus
  refine (hinner _).bind fun operand rest hpost => ?_
  obtain ⟨top, used, rfl, htop, hoperand⟩ := hpost
  exact Ensures.pure ⟨top, minus :: used, rfl, htop, .unary hoperand⟩

theorem derives_primaryOver (hdepth : depth ≤ bound)
    (hinner : Derives inner (Primary (depth + 1)) bound) :
    Derives (primaryOver inner) (Primary depth) bound := by
  have hexpr := derives_exprOver hinner
  intro tokens
  refine Ensures.current_bind ?_
  split
  · exact derives_identifierOrCallOver hdepth hexpr tokens
  · refine (ensures_intLiteral tokens).bind fun value rest hpost => ?_
    obtain ⟨token, rfl, hkind, hvalue, rfl⟩ := hpost
    exact Ensures.pure ⟨depth, [token], rfl, hdepth, .int hkind hvalue⟩
  · refine (ensures_floatLiteral tokens).bind fun value rest hpost => ?_
    obtain ⟨token, rfl, hkind, hvalue, hfinite⟩ := hpost
    exact Ensures.pure ⟨depth, [token], rfl, hdepth, .float hkind hvalue hfinite⟩
  · refine (ensures_boolLiteral tokens).bind fun value rest hpost => ?_
    obtain ⟨token, rfl, hkind, rfl⟩ := hpost
    exact Ensures.pure ⟨depth, [token], rfl, hdepth, .bool hkind⟩
  · split
    · exact derives_parenthesizedOver hexpr tokens
    · exact Ensures.unexpected _
  · split
    · rename_i hminus
      exact derives_unaryOver hinner hminus
    · exact Ensures.unexpected _
  · exact Ensures.unexpected _

end Primaries

/-! ## By levels -/

theorem derives_innerPrimary (levels depth : Nat) :
    Derives (innerPrimary levels) (Primary (depth + 1)) (depth + levels) := by
  induction levels generalizing depth with
  | zero => exact fun _ => Ensures.throw rfl
  | succ levels ih =>
    have hprimary := derives_primaryOver (Nat.le_add_right (depth + 1) levels) (ih (depth + 1))
    rwa [Nat.add_right_comm] at hprimary

theorem derives_primary (levels depth : Nat) :
    Derives (primary levels) (Primary depth) (depth + levels) :=
  derives_primaryOver (Nat.le_add_right depth levels) (derives_innerPrimary levels depth)

theorem derives_expr (levels depth : Nat) :
    Derives (expr levels) (Expression depth) (depth + levels) :=
  derives_exprOver (derives_primary levels depth)

theorem derives_arguments (levels depth : Nat) :
    Derives (arguments levels) (fun top used args => Args depth top (punct "(" :: used) args)
      (depth + levels) :=
  derives_argumentsOver (Nat.le_add_right depth levels)
    (derives_exprOver (derives_innerPrimary levels depth))

end Frontend.Parser
