import Frontend.Proofs.Deriving.Expr
import Frontend.Proofs.Viability.Basic

/-!
# Unexpected tokens in expressions

What was passed over of an expression before an unexpected token begins an expression.  A name
completes whatever lacks an operand, and a parenthesis closes what is open.  No completion goes
further down than the parser has gone, so the bound on the depth holds for them too.
-/

namespace Frontend.Parser

open Grammar

/-! ## Literals -/

section Literals

variable {tokens : List Token} {goal : List Token → Prop}

/-- A literal that has no value is another error. -/
theorem viable_intLiteral (hopen : Completable goal []) : Viable intLiteral tokens goal := by
  refine Viable.expect_bind (by decide) hopen fun token rest _ => ?_
  dsimp only
  split
  · exact Viable.pure _
  · exact Viable.throw (by simp)

theorem viable_floatLiteral (hopen : Completable goal []) : Viable floatLiteral tokens goal := by
  refine Viable.expect_bind (by decide) hopen fun token rest _ => ?_
  split
  · exact Viable.pure _
  · exact Viable.throw (by simp)

theorem viable_boolLiteral (hopen : Completable goal []) : Viable boolLiteral tokens goal := by
  refine Viable.expect_bind (by decide) hopen fun token rest _ => ?_
  split
  · exact Viable.pure _
  · split
    · exact Viable.pure _
    · exact Viable.throw (by simp)

end Literals

/-! ## Chains -/

section Chains

variable {primary : Parser Expr} {depth bound : Nat}

/-- An operator lacks its second operand, and that is completed to a primary. -/
theorem viable_linkOver (hprimary : Completes primary (Within (Primary depth) bound))
    (tokens : List Token) :
    Viable (linkOver primary 0) tokens fun used =>
      ∃ links, Within (Links depth) bound used links := by
  refine Viable.current_bind ?_
  split
  · exact Viable.pure _
  · rename_i hprecedence
    have hkind := kind_of_precedence hprecedence
    cases tokens with
    | nil => exact absurd hkind (by decide)
    | cons operator tokens =>
      refine Viable.advance_bind (Viable.bind_pure ?_ _)
      refine hprimary.open_goal fun used operand hoperand => .of_goal ?_
      obtain ⟨top, htop, hoperand⟩ := hoperand
      have hnil : Within (Links depth) bound [] [] :=
        ⟨depth, Nat.le_trans hoperand.depth_le htop, .nil⟩
      have hlinks : Within (Links depth) bound ((operator :: used) ++ [])
          [(operator.text, operand)] :=
        links_cons ⟨top, operator, used, rfl, hkind, rfl, htop, hoperand⟩ hnil
      exact Viable.exists_items hlinks

theorem completes_exprOver (hderives : Derives primary (Primary depth) bound)
    (hprimary : Completes primary (Within (Primary depth) bound)) :
    Completes (exprOver primary) (Within (Expression depth) bound) := by
  have hchain {used used' : List Token} {first : Expr} {links : List (String × Expr)}
      (hfirst : Within (Primary depth) bound used first)
      (hlinks : Within (Links depth) bound used' links) :
      ∃ expr, Within (Expression depth) bound (used ++ used') expr := by
    obtain ⟨top, htop, hfirst⟩ := hfirst
    obtain ⟨top', htop', hlinks⟩ := hlinks
    exact ⟨_, max top top', Nat.max_le.2 ⟨htop, htop'⟩, .chain hfirst hlinks⟩
  intro tokens
  refine hprimary.bind hderives.within ?_ fun used first rest hfirst => ?_
  · intro used first hfirst
    have hnil : Within (Links depth) bound [] [] := by
      obtain ⟨top, htop, hfirst⟩ := hfirst
      exact ⟨depth, Nat.le_trans hfirst.depth_le htop, .nil⟩
    exact ⟨[], List.forall_mem_nil _, hchain hfirst hnil⟩
  · refine Viable.bind_pure ?_ _
    refine Viable.collect _ links_cons (ensures_linkOver hderives) (viable_linkOver hprimary) ?_
    intro used' links hlinks
    exact .of_goal (hchain hfirst hlinks)

end Chains

/-! ## Primaries -/

section Primaries

variable {inner : Parser Expr} {depth bound : Nat}

theorem viable_moreArgOver (hdepth : depth ≤ bound)
    (hexpr : Completes (exprOver inner) (Within (Expression (depth + 1)) bound))
    (tokens : List Token) :
    Viable (moreArgOver inner) tokens fun used =>
      ∃ args, Within (MoreArgs depth) bound used args := by
  have hnil : Within (MoreArgs depth) bound [] [] := ⟨depth, hdepth, .nil⟩
  refine Viable.current_bind ?_
  split
  · exact Viable.pure _
  · refine Viable.current_bind ?_
    dsimp only
    split
    · exact Viable.unexpected_bind (.of_goal ⟨[], hnil⟩) _
    · rename_i hcomma
      obtain ⟨rest, rfl⟩ := exists_of_isMisc (by simpa using hcomma)
      refine Viable.discard_advance_bind (Viable.bind_pure ?_ _)
      refine hexpr.open_goal fun used arg harg => .of_goal ?_
      obtain ⟨top, htop, harg⟩ := harg
      exact Viable.exists_items (moreArgs_cons ⟨top, used, rfl, htop, harg⟩ hnil)

theorem completes_argumentsOver (hdepth : depth ≤ bound)
    (hderives : Derives (exprOver inner) (Expression (depth + 1)) bound)
    (hexpr : Completes (exprOver inner) (Within (Expression (depth + 1)) bound)) :
    Completes (argumentsOver inner)
      (Within (fun top used args => Args depth top (punct "(" :: used) args) bound) := by
  have hclose {used used' : List Token} {arg : Expr} {args : List Expr}
      (harg : Within (Expression (depth + 1)) bound used arg)
      (hargs : Within (MoreArgs depth) bound used' args) :
      ∃ args, Within (fun top used args => Args depth top (punct "(" :: used) args) bound
        (used ++ (used' ++ [punct ")"])) args := by
    obtain ⟨top, htop, harg⟩ := harg
    obtain ⟨top', htop', hargs⟩ := hargs
    exact ⟨_, max top top', Nat.max_le.2 ⟨htop, htop'⟩, .some harg hargs⟩
  have hnil : Within (MoreArgs depth) bound [] [] := ⟨depth, hdepth, .nil⟩
  intro tokens
  refine Viable.current_bind ?_
  dsimp only
  split
  · refine Viable.discard_expectMisc_bind ?_ fun rest => Viable.pure _
    exact ⟨[punct ")"], by decide, [], depth, hdepth, .none⟩
  · refine hexpr.bind hderives.within ?_ fun used arg rest harg => ?_
    · intro used arg harg
      exact ⟨[punct ")"], by decide, hclose harg hnil⟩
    · refine Viable.collect_bind _ hnil moreArgs_cons (ensures_moreArgOver hderives)
        (viable_moreArgOver hdepth hexpr) ?_ fun used' args rest hargs _ => ?_
      · intro used' args hargs
        exact ⟨[punct ")"], by decide, hclose harg hargs⟩
      · refine Viable.discard_expectMisc_bind ?_ fun rest => Viable.pure _
        exact ⟨[punct ")"], by decide, hclose harg hargs⟩

/-- A name is a primary, so a primary can be completed before anything was passed over. -/
theorem completable_primary (hdepth : depth ≤ bound) :
    Completable (fun used => ∃ expr, Within (Primary depth) bound used expr) [] :=
  ⟨[filler], by decide, _, depth, hdepth, .var rfl⟩

theorem completes_identifierOrCallOver (hdepth : depth ≤ bound)
    (hderives : Derives (exprOver inner) (Expression (depth + 1)) bound)
    (hexpr : Completes (exprOver inner) (Within (Expression (depth + 1)) bound)) :
    Completes (identifierOrCallOver inner) (Within (Primary depth) bound) := by
  intro tokens
  refine Viable.expect_bind (by decide) (completable_primary hdepth) fun name rest hname => ?_
  refine Viable.current_bind ?_
  split
  · rename_i hmisc
    obtain ⟨rest, rfl⟩ := exists_of_isMisc hmisc
    refine Viable.discard_advance_bind (Viable.bind_pure ?_ _)
    refine (completes_argumentsOver hdepth hderives hexpr).open_goal fun used args hargs => ?_
    obtain ⟨top, htop, hargs⟩ := hargs
    exact .of_goal ⟨_, top, htop, .call hname hargs⟩
  · exact Viable.pure _

theorem completes_parenthesizedOver (hdepth : depth ≤ bound)
    (hderives : Derives (exprOver inner) (Expression (depth + 1)) bound)
    (hexpr : Completes (exprOver inner) (Within (Expression (depth + 1)) bound)) :
    Completes (parenthesizedOver inner) (Within (Primary depth) bound) := by
  have hclose {used : List Token} {expr : Expr}
      (hexpr : Within (Expression (depth + 1)) bound used expr) :
      ∃ expr, Within (Primary depth) bound (punct "(" :: (used ++ [punct ")"])) expr := by
    obtain ⟨top, htop, hexpr⟩ := hexpr
    exact ⟨expr, top, htop, .paren hexpr⟩
  intro tokens
  refine Viable.discard_expectMisc_bind (completable_primary hdepth) fun rest => ?_
  refine hexpr.bind hderives.within ?_ fun used expr rest hexpr => ?_
  · intro used expr hexpr
    exact ⟨[punct ")"], by decide, hclose hexpr⟩
  · refine Viable.discard_expectMisc_bind ?_ fun rest => Viable.pure _
    exact ⟨[punct ")"], by decide, hclose hexpr⟩

theorem viable_unaryOver {tokens : List Token} (hdepth : depth ≤ bound)
    (hinner : Completes inner (Within (Primary (depth + 1)) bound))
    (hminus : (tokens.headD .eof).isOp "-" = true) :
    Viable (unaryOver inner) tokens fun used => ∃ expr, Within (Primary depth) bound used expr := by
  refine Viable.bind (Ensures.expect (by decide) _ tokens)
    (Viable.expect (completable_primary hdepth) _) fun operator rest hpost => ?_
  obtain ⟨rfl, -⟩ := hpost
  obtain rfl : operator = minus := eq_minus_of_isOp hminus
  refine ⟨[minus], rfl, Viable.bind_pure ?_ _⟩
  refine hinner.open_goal fun used operand hoperand => ?_
  obtain ⟨top, htop, hoperand⟩ := hoperand
  exact .of_goal ⟨_, top, htop, .unary hoperand⟩

theorem completes_primaryOver (hdepth : depth ≤ bound)
    (hderives : Derives inner (Primary (depth + 1)) bound)
    (hinner : Completes inner (Within (Primary (depth + 1)) bound)) :
    Completes (primaryOver inner) (Within (Primary depth) bound) := by
  have hexprDerives := derives_exprOver hderives
  have hexpr := completes_exprOver hderives hinner
  have hopen : Completable (fun used => ∃ expr, Within (Primary depth) bound used expr) [] :=
    completable_primary hdepth
  intro tokens
  refine Viable.current_bind ?_
  split
  · exact completes_identifierOrCallOver hdepth hexprDerives hexpr tokens
  · exact Viable.bind_pure (viable_intLiteral hopen) _
  · exact Viable.bind_pure (viable_floatLiteral hopen) _
  · exact Viable.bind_pure (viable_boolLiteral hopen) _
  · split
    · exact completes_parenthesizedOver hdepth hexprDerives hexpr tokens
    · exact Viable.unexpected hopen _
  · split
    · rename_i hminus
      exact viable_unaryOver hdepth hinner hminus
    · exact Viable.unexpected hopen _
  · exact Viable.unexpected hopen _

end Primaries

/-! ## By levels -/

theorem completes_innerPrimary (levels depth : Nat) :
    Completes (innerPrimary levels) (Within (Primary (depth + 1)) (depth + levels)) := by
  induction levels generalizing depth with
  | zero => exact fun _ => Viable.throw (by simp)
  | succ levels ih =>
    have hprimary := completes_primaryOver (Nat.le_add_right (depth + 1) levels)
      (derives_innerPrimary levels (depth + 1)) (ih (depth + 1))
    rwa [Nat.add_right_comm] at hprimary

theorem completes_expr (levels depth : Nat) :
    Completes (expr levels) (Within (Expression depth) (depth + levels)) :=
  completes_exprOver (derives_primary levels depth)
    (completes_primaryOver (Nat.le_add_right depth levels) (derives_innerPrimary levels depth)
      (completes_innerPrimary levels depth))

theorem completes_arguments (levels depth : Nat) :
    Completes (arguments levels)
      (Within (fun top used args => Args depth top (punct "(" :: used) args) (depth + levels)) :=
  completes_argumentsOver (Nat.le_add_right depth levels)
    (derives_exprOver (derives_innerPrimary levels depth))
    (completes_exprOver (derives_innerPrimary levels depth) (completes_innerPrimary levels depth))

end Frontend.Parser
