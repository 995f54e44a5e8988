import Frontend.Proofs.Descent.Matching
import Frontend.Proofs.Reading.Expr

/-!
# The routines of expressions

A chain ends since every operator and its operand leave less to be read, and a primary since
whatever it goes into is one level further down.
-/

namespace Frontend

/-! ## Precedences in 32 bits -/

theorem Operator.precedence_le (text : String) : precedence text ≤ 40 := by
  have hall : ∀ entry ∈ precedences, entry.2 ≤ 40 := by decide
  unfold precedence
  cases hlookup : precedences.lookup text with
  | none => decide
  | some value =>
    obtain ⟨before, after, hsplit, -⟩ := List.lookup_eq_some_iff.1 hlookup
    exact hall (text, value) (by simp [hsplit])

theorem Token.precedence_le (token : Token) : token.precedence ≤ 40 := by
  unfold Token.precedence
  split
  · exact Operator.precedence_le token.text
  · decide

namespace Descent

theorem toInt_precedence (token : Token) : (precedence token).toInt = token.precedence := by
  have hlow := Token.neg_one_le_precedence token
  have hhigh := Token.precedence_le token
  exact Int32.toInt_ofInt_of_le (by omega) (by omega)

/-- The precedence after that of a token is in range. -/
theorem toInt_precedence_add_one (token : Token) :
    (precedence token + 1).toInt = token.precedence + 1 := by
  have hlow := Token.neg_one_le_precedence token
  have hhigh := Token.precedence_le token
  have hadd : precedence token + 1 = Int32.ofInt (token.precedence + 1) :=
    (Int32.ofInt_add token.precedence 1).symm
  rw [hadd]
  exact Int32.toInt_ofInt_of_le (by omega) (by omega)

theorem precedence_lt_iff {token : Token} {least : Int32} :
    precedence token < least ↔ token.precedence < least.toInt := by
  rw [Int32.lt_iff_toInt_lt, toInt_precedence]

open Frontend.Parser

variable {levels : Nat}

/-! ## Chains -/

/-- The right operand of an operator is read by the chain of those that bind tighter. -/
theorem matchesAt_rightOperand {machine : Machine} {token : Token} {operand : Expr}
    (hvalid : machine.state.Valid)
    (hchain : MatchesAt (fun calls => chain calls (precedence token + 1) operand)
      (Parser.chain levels (precedence token + 1).toInt operand) machine) :
    MatchesAt (fun calls => if precedence token < precedence machine.state.current then
        chain calls (precedence token + 1) operand else pure operand)
      (rightOperand levels token.precedence operand) machine := by
  have hright : (rightOperand levels token.precedence operand).outcome machine.state =
      (if token.precedence < machine.state.current.precedence then
        Parser.chain levels (token.precedence + 1) operand
      else pure operand : Parser Expr).outcome machine.state :=
    rfl
  refine MatchesAt.congr hright ?_
  rw [toInt_precedence_add_one] at hchain
  by_cases htighter : token.precedence < machine.state.current.precedence
  · have htighter' : precedence token < precedence machine.state.current := by
      rwa [precedence_lt_iff, toInt_precedence]
    simp only [if_pos htighter, if_pos htighter']
    exact hchain
  · have htighter' : ¬precedence token < precedence machine.state.current := by
      rwa [precedence_lt_iff, toInt_precedence]
    simp only [if_neg htighter, if_neg htighter']
    exact .pure operand hvalid

/-- A chain ends, whatever the least precedence.  The induction is on what remains to be read. -/
theorem matches_chain (hprimary : Matches levels primary (Parser.primary levels)) (least : Int32)
    (lhs : Expr) :
    Matches levels (fun calls => chain calls least lhs)
      (Parser.chain levels least.toInt lhs) := by
  intro machine hvalid hdepth
  induction hremaining : machine.state.remaining using Nat.strongRecOn
    generalizing machine least lhs with
  | ind remaining ih =>
    refine MatchesAt.of_succ (fun calls => by rw [chain]) ?_
    refine MatchesAt.congr (outcome_chain_climb levels least.toInt lhs hvalid) ?_
    refine MatchesAt.current_bind ?_
    by_cases hstop : machine.state.current.precedence < least.toInt
    · simp only [if_pos hstop, if_pos (precedence_lt_iff.2 hstop)]
      exact .pure lhs hvalid
    · simp only [if_neg hstop, if_neg (mt precedence_lt_iff.1 hstop)]
      refine (Matches.lift Local.advance machine hvalid hdepth).bind ?_
      intro operator start hadvance hstart
      have hstate : machine.state.advance = start.state := congrArg Prod.snd hadvance
      have hdepth' : start.depth + levels = maxNesting := hstart.depth_eq ▸ hdepth
      refine (hprimary start hstart.follows.valid hdepth').bind ?_
      intro operand middle hoperand hmiddle
      have hlt : middle.state.remaining < machine.state.remaining :=
        remaining_lt_of_operand hvalid (hstate ▸ hoperand)
      have hdepth'' : middle.depth + levels = maxNesting := hmiddle.depth_eq ▸ hdepth'
      refine MatchesAt.current_bind_left (MatchesAt.bind (matchesAt_rightOperand
        hmiddle.follows.valid (ih _ (hremaining ▸ hlt) _ operand middle hmiddle.follows.valid
          hdepth'' rfl)) ?_)
      intro rhs last _ hlast
      have hle := hlast.follows.remaining_le
      exact ih _ (by omega) least _ last hlast.follows.valid (hlast.depth_eq ▸ hdepth'') rfl

theorem matches_expr (hprimary : Matches levels primary (Parser.primary levels)) :
    Matches levels expr (Parser.expr levels) := by
  refine Matches.of_succ (fun calls => by rw [expr]) ?_
  exact hprimary.bind fun first => matches_chain hprimary 0 first

/-! ## Primaries -/

section Primaries

variable (hexpr : Matches levels (fun calls => nested (expr calls))
  (exprOver (innerPrimary levels)))
include hexpr

theorem matches_parenthesized : Matches levels parenthesized (Parser.parenthesized levels) := by
  refine Matches.of_succ (fun calls => by rw [parenthesized]) ?_
  refine (Matches.lift (Local.expectMisc _).discard).bind fun _ => hexpr.bind fun expr => ?_
  exact (Matches.lift (Local.expectMisc _).discard).bind fun _ => .pure expr

theorem matches_moreArg :
    Matches levels (fun calls => moreArg (expr calls)) (moreArgOver (innerPrimary levels)) := by
  refine Matches.current_bind fun token => Matches.ite (.pure none) ?_
  have harg : Matches levels (fun calls => do
      lift (discard advance)
      return some (← nested (expr calls))) (do
      discard advance
      return some (← exprOver (innerPrimary levels))) :=
    (Matches.lift Local.advance.discard).bind fun _ => hexpr.bind fun arg => .pure (some arg)
  refine Matches.current_bind fun token => Matches.ite ?_ harg
  exact (Matches.unexpected _).bind fun _ => harg

theorem matches_arguments : Matches levels arguments (Parser.arguments levels) := by
  have hclose (args : List Expr) : Matches levels (fun _ => do
      lift (discard <| expectMisc ")")
      return args) (do
      discard <| expectMisc ")"
      return args) :=
    (Matches.lift (Local.expectMisc _).discard).bind fun _ => .pure args
  refine Matches.of_succ (fun calls => by rw [arguments]) ?_
  refine Matches.current_bind fun token => ?_
  dsimp only
  refine Matches.ite ((Matches.pure _).bind hclose) (hexpr.bind fun first => ?_)
  have hmore := Matches.gather
    (ensures_moreArgOver (derives_exprOver (derives_innerPrimary levels 0)))
    (matches_moreArg hexpr) [first]
  have hargs := hmore.bind hclose
  rw [gather_bind] at hargs
  exact hargs

theorem matches_identifierOrCall :
    Matches levels identifierOrCall (Parser.identifierOrCall levels) := by
  refine Matches.of_succ (fun calls => by rw [identifierOrCall]) ?_
  refine (Matches.lift (Local.expect _ _)).bind fun name => ?_
  refine Matches.current_bind fun token => Matches.ite ?_ (.pure _)
  refine (Matches.lift Local.advance.discard).bind fun _ => ?_
  exact (matches_arguments hexpr).bind fun args => .pure _

end Primaries

theorem matches_unary
    (hinner : Matches levels (fun calls => nested (primary calls)) (innerPrimary levels)) :
    Matches levels unary (Parser.unary levels) := by
  refine Matches.of_succ (fun calls => by rw [unary]) ?_
  exact (Matches.lift (Local.expect _ _)).bind fun operator => hinner.bind fun operand => .pure _

theorem matches_primary_of_nested
    (hinner : Matches levels (fun calls => nested (primary calls)) (innerPrimary levels))
    (hexpr : Matches levels (fun calls => nested (expr calls)) (exprOver (innerPrimary levels))) :
    Matches levels primary (Parser.primary levels) := by
  refine Matches.of_succ (fun calls => by rw [primary]) ?_
  refine Matches.current_bind fun token => ?_
  cases token.kind with
  | identifier => exact matches_identifierOrCall hexpr
  | int => exact (Matches.lift local_intLiteral).bind fun value => .pure _
  | float => exact (Matches.lift local_floatLiteral).bind fun value => .pure _
  | bool => exact (Matches.lift local_boolLiteral).bind fun value => .pure _
  | misc => exact Matches.ite (matches_parenthesized hexpr) (.unexpected _)
  | op => exact Matches.ite (matches_unary hinner) (.unexpected _)
  | _ => exact .unexpected _

/-! ## By levels -/

/-- The induction is on the levels that are left. -/
theorem matches_primary (levels : Nat) : Matches levels primary (Parser.primary levels) := by
  induction levels using Nat.strongRecOn with
  | ind levels ih =>
    apply matches_primary_of_nested
    · rw [innerPrimary_eq_nested]
      exact Matches.nested ih
    · rw [exprOver_innerPrimary]
      exact Matches.nested fun below hbelow => matches_expr (ih below hbelow)

theorem matches_nestedPrimary (levels : Nat) :
    Matches levels (fun calls => nested (primary calls)) (innerPrimary levels) := by
  rw [innerPrimary_eq_nested]
  exact Matches.nested fun below _ => matches_primary below

theorem matches_nestedExpr (levels : Nat) :
    Matches levels (fun calls => nested (expr calls)) (exprOver (innerPrimary levels)) := by
  rw [exprOver_innerPrimary]
  exact Matches.nested fun below _ => matches_expr (matches_primary below)

end Descent

end Frontend
