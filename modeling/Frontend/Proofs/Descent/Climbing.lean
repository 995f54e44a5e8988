import Frontend.Proofs.Lookahead.Parsers
import Frontend.Proofs.Precedence

/-!
# Climbing

The parser of a chain reads a row of operators and operands and groups it when the row has ended.
It can as well group what it reads at once.  After an operator and its operand, the operators
that bind tighter make up a chain of their own, which is the right operand; what then follows
binds no tighter, so that the binary expression is complete and becomes the left operand of the
rest.

- `outcome_row_split`: a row is read in two parts, first the operators that bind tighter
- `Expr.ofChain_link`: the tree of such a row
- `outcome_chain_climb`: the two ways to read a chain end alike
- `chain_fails_of_neg`: with a negative least precedence every token is taken for an operator, and
  the chain fails at the end of the source at the latest
-/

namespace Frontend

open Operator

/-! ## The tree of a row in two parts -/

namespace OpTree

/-- A tree grows at its right edge, so that its left operand counts only as an expression. -/
theorem toExpr_extend_node_congr (operator : String) {lhs lhs' : OpTree} (rhs : OpTree)
    (hlhs : lhs.toExpr = lhs'.toExpr) (row : List (String × Expr)) :
    ((node operator lhs rhs).extend row).toExpr = ((node operator lhs' rhs).extend row).toExpr := by
  induction row generalizing operator lhs lhs' rhs with
  | nil =>
    show (node operator lhs rhs).toExpr = (node operator lhs' rhs).toExpr
    rw [toExpr, toExpr, hlhs]
  | cons link row ih =>
    show (extend (snoc link.1 link.2 (node operator lhs rhs)) row).toExpr =
      (extend (snoc link.1 link.2 (node operator lhs' rhs)) row).toExpr
    rw [snoc, snoc]
    split
    · exact ih operator (rhs.snoc link.1 link.2) hlhs
    · refine ih link.1 (leaf link.2) ?_
      rw [toExpr, toExpr, hlhs]

end OpTree

/-- An operator takes the links after it that bind tighter.  If the next one does not, the tree
goes on as if the binary expression were in parentheses. -/
theorem Expr.ofChain_link {operator : String} {links more : List (String × Expr)}
    (hlinks : ∀ link ∈ links, precedence operator + 1 ≤ precedence link.1)
    (hmore : ∀ link ∈ more.head?, precedence link.1 ≤ precedence operator) (lhs operand : Expr) :
    ofChain lhs ((operator, operand) :: (links ++ more)) =
      ofChain (.binary operator lhs (ofChain operand links) none) more := by
  have hnode : (OpTree.leaf lhs).extend ((operator, operand) :: (links ++ more)) =
      (OpTree.node operator (.leaf lhs) ((OpTree.leaf operand).extend links)).extend more := by
    rw [← OpTree.extend_node hlinks]
    exact List.foldl_append
  show ((OpTree.leaf lhs).extend ((operator, operand) :: (links ++ more))).toExpr = _
  rw [hnode]
  cases more with
  | nil => rfl
  | cons link more =>
    have hsnoc (rhs : OpTree) :
        (OpTree.node operator (.leaf lhs) rhs).snoc link.1 link.2 =
          .node link.1 (.node operator (.leaf lhs) rhs) (.leaf link.2) :=
      if_neg (Int.not_lt.2 (hmore link rfl))
    show (OpTree.extend (OpTree.snoc link.1 link.2 _) more).toExpr =
      (OpTree.extend (OpTree.node link.1 (.leaf _) (.leaf link.2)) more).toExpr
    rw [hsnoc]
    apply OpTree.toExpr_extend_node_congr
    rfl

/-! ## Rows -/

theorem Token.precedence_eq {token : Token} (hnonneg : 0 ≤ token.precedence) :
    Operator.precedence token.text = token.precedence := by
  have hkind := (Token.precedence_nonneg_iff.1 hnonneg).1
  simp [Token.precedence, hkind]

theorem Token.neg_one_le_precedence (token : Token) : -1 ≤ token.precedence := by
  unfold Token.precedence
  split
  · exact Operator.neg_one_le_precedence token.text
  · exact Int.le_refl _

namespace Parser

variable {levels : Nat} {least : Int} {state middle last : State}

/-- The operators of at least the given precedence from here on, with their operands. -/
def row (levels : Nat) (least : Int) : Parser (List (String × Expr)) :=
  collect (linkOver (primary levels) least)

/-- A primary passes over a token. -/
theorem remaining_lt_of_primary {operand : Expr} (hvalid : state.Valid)
    (hprimary : primary levels state = .ok operand last) : last.remaining < state.remaining := by
  have hrun := derives_primary levels 0 state.pending state hvalid rfl
  rw [hprimary] at hrun
  obtain ⟨hcontinues, top, used, hused, -, hderives⟩ := hrun
  have hpos := List.length_pos_iff.2 hderives.ne_nil
  refine hcontinues.remaining_lt ?_
  rw [hused, List.length_append]
  omega

theorem remaining_lt_of_operand {operand : Expr} (hvalid : state.Valid)
    (hoperand : (primary levels).outcome state.advance = (.ok operand, middle)) :
    middle.remaining < state.remaining := by
  have hadvance := hvalid.follows_advance
  have hlt := remaining_lt_of_primary hadvance.valid (outcome_eq_ok_iff.1 hoperand)
  have hle := hadvance.remaining_le
  omega

theorem follows_of_operand {operand : Expr} (hvalid : state.Valid)
    (hoperand : (primary levels).outcome state.advance = (.ok operand, middle)) :
    middle.Follows state := by
  have hadvance := hvalid.follows_advance
  have hfollows := (local_primary levels state.advance hadvance.valid).follows
  rw [hoperand] at hfollows
  exact hadvance.trans hfollows

theorem outcome_linkOver_link {operand : Expr} (htakes : least ≤ state.current.precedence)
    (hoperand : (primary levels).outcome state.advance = (.ok operand, middle)) :
    (linkOver (primary levels) least).outcome state =
      (.ok (some (state.current.text, operand)), middle) := by
  rw [outcome_eq_ok_iff, linkOver_link htakes, outcome_eq_ok_iff.1 hoperand]

theorem outcome_linkOver_error {error : Error} (htakes : least ≤ state.current.precedence)
    (hoperand : (primary levels).outcome state.advance = (.error error, last)) :
    (linkOver (primary levels) least).outcome state = (.error error, last) := by
  rw [outcome_eq_error_iff, linkOver_link htakes, outcome_eq_error_iff.1 hoperand]

theorem outcome_row (hvalid : state.Valid) :
    (row levels least).outcome state = (round (linkOver (primary levels) least)).outcome state := by
  refine outcome_collect_of_progress fun link middle hrun => ?_
  by_cases htakes : least ≤ state.current.precedence
  · rcases hoperand : (primary levels).outcome state.advance with ⟨error | operand, last⟩
    · rw [outcome_linkOver_error htakes hoperand] at hrun
      cases hrun
    · rw [outcome_linkOver_link htakes hoperand] at hrun
      cases hrun
      exact remaining_lt_of_operand hvalid hoperand
  · rw [outcome_eq_ok_iff, linkOver_stop (Int.not_le.1 htakes)] at hrun
    cases hrun

theorem outcome_row_stop (hvalid : state.Valid) (hstop : state.current.precedence < least) :
    (row levels least).outcome state = (.ok [], state) := by
  rw [outcome_row hvalid, round, outcome_bind_ok (outcome_eq_ok_iff.2 (linkOver_stop hstop))]
  rfl

theorem outcome_row_link {operand : Expr} (hvalid : state.Valid)
    (htakes : least ≤ state.current.precedence)
    (hoperand : (primary levels).outcome state.advance = (.ok operand, middle)) :
    (row levels least).outcome state =
      (do return (state.current.text, operand) :: (← row levels least)).outcome middle := by
  rw [outcome_row hvalid, round, outcome_bind_ok (outcome_linkOver_link htakes hoperand)]
  rfl

theorem outcome_row_error {error : Error} (hvalid : state.Valid)
    (htakes : least ≤ state.current.precedence)
    (hoperand : (primary levels).outcome state.advance = (.error error, last)) :
    (row levels least).outcome state = (.error error, last) := by
  rw [outcome_row hvalid, round, outcome_bind_error (outcome_linkOver_error htakes hoperand)]

/-- A row is read up to the first operator that binds looser than `tighter`, and then on.  The
induction is on what remains to be read, which every operand makes less. -/
theorem outcome_row_split {tighter : Int} (hleast : least ≤ tighter) (hvalid : state.Valid) :
    (row levels least).outcome state =
      (do
        let links ← row levels tighter
        return links ++ (← row levels least)).outcome state := by
  induction hremaining : state.remaining using Nat.strongRecOn generalizing state with
  | ind remaining ih =>
    by_cases htakes : tighter ≤ state.current.precedence
    · have htakes' := Int.le_trans hleast htakes
      rcases hoperand : (primary levels).outcome state.advance with ⟨error | operand, middle⟩
      · rw [outcome_row_error hvalid htakes' hoperand,
          outcome_bind_error (outcome_row_error hvalid htakes hoperand)]
      · have hlt := remaining_lt_of_operand hvalid hoperand
        have hmiddle := (follows_of_operand hvalid hoperand).valid
        have hsplit := ih _ (hremaining ▸ hlt) hmiddle rfl
        have htighter := outcome_row_link hvalid htakes hoperand
        rw [outcome_row_link hvalid htakes' hoperand]
        rcases hlinks : (row levels tighter).outcome middle with ⟨error | links, state'⟩
        · rw [outcome_bind_error hlinks] at hsplit htighter
          rw [outcome_bind_error hsplit, outcome_bind_error htighter]
        · rw [outcome_bind_ok hlinks] at hsplit htighter
          rw [outcome_bind_ok htighter]
          rcases hmore : (row levels least).outcome state' with ⟨error | more, last⟩
          · rw [outcome_bind_error hmore] at hsplit
            rw [outcome_bind_error hsplit, outcome_bind_error hmore]
          · rw [outcome_bind_ok hmore] at hsplit
            rw [outcome_bind_ok hsplit, outcome_bind_ok hmore]
            rfl
    · rw [outcome_bind_ok (outcome_row_stop hvalid (Int.not_le.1 htakes))]
      rcases hmore : (row levels least).outcome state with ⟨error | more, last⟩
      · rw [outcome_bind_error hmore]
      · rw [outcome_bind_ok hmore]
        rfl

/-- With a negative least precedence no token ends the row. -/
theorem row_fails_of_neg (hleast : least < 0) (hvalid : state.Valid) :
    ∃ error, ((row levels least).outcome state).1 = .error error := by
  induction hremaining : state.remaining using Nat.strongRecOn generalizing state with
  | ind remaining ih =>
    have htakes : least ≤ state.current.precedence := by
      have hle := Token.neg_one_le_precedence state.current
      omega
    rcases hoperand : (primary levels).outcome state.advance with ⟨error | operand, middle⟩
    · rw [outcome_row_error hvalid htakes hoperand]
      exact ⟨error, rfl⟩
    · have hlt := remaining_lt_of_operand hvalid hoperand
      have hmiddle := (follows_of_operand hvalid hoperand).valid
      obtain ⟨error, hfails⟩ := ih _ (hremaining ▸ hlt) hmiddle rfl
      have hrun : (row levels least).outcome middle =
          (.error error, ((row levels least).outcome middle).2) :=
        Prod.ext hfails rfl
      rw [outcome_row_link hvalid htakes hoperand, outcome_bind_error hrun]
      exact ⟨error, rfl⟩

/-- A row that ends has a least precedence that is not negative. -/
theorem nonneg_of_row_ok {links : List (String × Expr)} (hvalid : state.Valid)
    (hrow : (row levels least).outcome state = (.ok links, last)) : 0 ≤ least := by
  rcases Int.lt_or_le least 0 with hneg | hnonneg
  · obtain ⟨error, hfails⟩ := row_fails_of_neg hneg hvalid
    rw [hrow] at hfails
    cases hfails
  · exact hnonneg

/-! ## What a row shows -/

namespace Run

variable {primary : Parser Expr} {links : List (String × Expr)}

theorem le_precedence (hleast : 0 ≤ least)
    (hrun : Run primary (fun token => least ≤ token.precedence) state links last) :
    ∀ link ∈ links, least ≤ precedence link.1 := by
  induction hrun with
  | stop hstop => nofun
  | link htakes hoperand hrun ih =>
    refine List.forall_mem_cons.2 ⟨?_, ih⟩
    rw [Token.precedence_eq (Int.le_trans hleast htakes)]
    exact htakes

theorem precedence_lt
    (hrun : Run primary (fun token => least ≤ token.precedence) state links last) :
    last.current.precedence < least := by
  induction hrun with
  | stop hstop => exact Int.not_le.1 hstop
  | link htakes hoperand hrun ih => exact ih

/-- The first operator of a row is the current token. -/
theorem precedence_head (hleast : 0 ≤ least)
    (hrun : Run primary (fun token => least ≤ token.precedence) state links last) :
    ∀ link ∈ links.head?, precedence link.1 = state.current.precedence := by
  cases hrun with
  | stop hstop => nofun
  | link htakes hoperand hrun =>
    rintro link hlink
    cases hlink
    exact Token.precedence_eq (Int.le_trans hleast htakes)

end Run

theorem run_of_row {links : List (String × Expr)} (hleast : 0 ≤ least)
    (hrow : (row levels least).outcome state = (.ok links, last)) :
    Run (primary levels) (fun token => least ≤ token.precedence) state links last :=
  (collect_linkOver_iff (remaining_le_of_primary levels) hleast).1 (outcome_eq_ok_iff.1 hrow)

/-! ## Chains -/

theorem outcome_chain_of_row_ok {links : List (String × Expr)} (lhs : Expr)
    (hrow : (row levels least).outcome state = (.ok links, last)) :
    (chain levels least lhs).outcome state = (.ok (Expr.ofChain lhs links), last) :=
  outcome_bind_ok hrow _

theorem outcome_chain_of_row_error {error : Error} (lhs : Expr)
    (hrow : (row levels least).outcome state = (.error error, last)) :
    (chain levels least lhs).outcome state = (.error error, last) :=
  outcome_bind_error hrow _

/-- With a negative least precedence a chain fails. -/
theorem chain_fails_of_neg (hleast : least < 0) (lhs : Expr) (hvalid : state.Valid) :
    ∃ error, ((chain levels least lhs).outcome state).1 = .error error := by
  obtain ⟨error, hfails⟩ := row_fails_of_neg hleast hvalid
  have hrow : (row levels least).outcome state =
      (.error error, ((row levels least).outcome state).2) :=
    Prod.ext hfails rfl
  rw [outcome_chain_of_row_error lhs hrow]
  exact ⟨error, rfl⟩

/-- The right operand of an operator with the given precedence, of which the first primary was
read. -/
def rightOperand (levels : Nat) (precedence : Int) (operand : Expr) : Parser Expr := do
  let following ← current
  if precedence < following.precedence then chain levels (precedence + 1) operand
  else return operand

theorem outcome_rightOperand (precedence : Int) (operand : Expr) (hvalid : state.Valid) :
    (rightOperand levels precedence operand).outcome state =
      (chain levels (precedence + 1) operand).outcome state := by
  show (if precedence < state.current.precedence then chain levels (precedence + 1) operand
    else pure operand : Parser Expr).outcome state = _
  split
  · rfl
  · rename_i hlooser
    have hstop : state.current.precedence < precedence + 1 := by omega
    rw [outcome_chain_of_row_ok operand (outcome_row_stop hvalid hstop)]
    rfl

/-- A chain that is grouped while it is read. -/
def climb (levels : Nat) (least : Int) (lhs : Expr) : Parser Expr := do
  let token ← current
  if token.precedence < least then return lhs
  let operator ← advance
  let operand ← primary levels
  let rhs ← rightOperand levels token.precedence operand
  chain levels least (.binary operator.text lhs rhs none)

/-- An operator is read with its right operand, and the chain goes on after it. -/
theorem outcome_chain_link {operand : Expr} (lhs : Expr) (hvalid : state.Valid)
    (htakes : least ≤ state.current.precedence)
    (hoperand : (primary levels).outcome state.advance = (.ok operand, middle)) :
    (chain levels least lhs).outcome state =
      (do
        let rhs ← rightOperand levels state.current.precedence operand
        chain levels least (.binary state.current.text lhs rhs none)).outcome middle := by
  have hmiddle := (follows_of_operand hvalid hoperand).valid
  have hrow := outcome_row_link hvalid htakes hoperand
  have hsplit : (row levels least).outcome middle = _ :=
    outcome_row_split (Int.le_trans htakes (Int.le_add_one (Int.le_refl _))) hmiddle
  have hright : (rightOperand levels state.current.precedence operand).outcome middle = _ :=
    outcome_rightOperand state.current.precedence operand hmiddle
  rcases hlinks : (row levels (state.current.precedence + 1)).outcome middle
    with ⟨error | links, state'⟩
  · rw [outcome_chain_of_row_error operand hlinks] at hright
    rw [outcome_bind_error hlinks] at hsplit
    rw [outcome_bind_error hsplit] at hrow
    rw [outcome_chain_of_row_error lhs hrow, outcome_bind_error hright]
  · rw [outcome_chain_of_row_ok operand hlinks] at hright
    rw [outcome_bind_ok hlinks] at hsplit
    rw [outcome_bind_ok hright]
    rcases hmore : (row levels least).outcome state' with ⟨error | more, last⟩
    · rw [outcome_bind_error hmore] at hsplit
      rw [outcome_bind_error hsplit] at hrow
      rw [outcome_chain_of_row_error lhs hrow, outcome_chain_of_row_error _ hmore]
    · rw [outcome_bind_ok hmore] at hsplit
      have hrow' : (row levels least).outcome state =
          (.ok ((state.current.text, operand) :: (links ++ more)), last) := by
        rw [hrow, outcome_bind_ok hsplit]
        rfl
      rw [outcome_chain_of_row_ok lhs hrow', outcome_chain_of_row_ok _ hmore]
      -- The row has ended, so its operators are operators and their texts have their precedences.
      have hnonneg := nonneg_of_row_ok hvalid hrow'
      have hoperator := Int.le_trans hnonneg htakes
      have hlinksRun := run_of_row (by omega) hlinks
      have hmoreRun := run_of_row hnonneg hmore
      rw [Expr.ofChain_link]
      · rw [Token.precedence_eq hoperator]
        exact hlinksRun.le_precedence (by omega)
      · intro link hlink
        have hlt := hlinksRun.precedence_lt
        rw [hmoreRun.precedence_head hnonneg link hlink, Token.precedence_eq hoperator]
        omega

/-- A chain is read alike whether it is grouped afterwards or on the way. -/
theorem outcome_chain_climb (levels : Nat) (least : Int) (lhs : Expr) (hvalid : state.Valid) :
    (chain levels least lhs).outcome state = (climb levels least lhs).outcome state := by
  have hclimb : (climb levels least lhs).outcome state =
      (if state.current.precedence < least then return lhs
        else do
          let operator ← advance
          let operand ← primary levels
          let rhs ← rightOperand levels state.current.precedence operand
          chain levels least (.binary operator.text lhs rhs none) : Parser Expr).outcome state :=
    rfl
  have hadvance : advance.outcome state = (.ok state.current, state.advance) := rfl
  rw [hclimb]
  split
  · rename_i hstop
    rw [outcome_chain_of_row_ok lhs (outcome_row_stop hvalid hstop)]
    rfl
  · rename_i htakes
    rw [Int.not_lt] at htakes
    rw [outcome_bind_ok hadvance]
    rcases hoperand : (primary levels).outcome state.advance with ⟨error | operand, middle⟩
    · rw [outcome_chain_of_row_error lhs (outcome_row_error hvalid htakes hoperand),
        outcome_bind_error hoperand]
    · rw [outcome_chain_link lhs hvalid htakes hoperand, outcome_bind_ok hoperand]

end Parser

end Frontend
