import Frontend.Proofs.Deriving.Expr
import Frontend.Proofs.Grouping

/-!
# Operator precedence

What the parser of a chain reads and how it groups what it has read.

- `Parser.Run` is the row of operators and primaries that is read: it goes on as long as the
  current token is one that the chain takes.  `collect_linkOver_iff` says that the parser reads
  exactly such a row, since every operator makes what remains to be read less.
- `OpTree.Ordered` says how a row is grouped, node by node.  A row is grouped in this way by one
  tree only, the one that grows at its right edge (`spans_ordered_iff`).
-/

namespace Frontend

open Operator

/-! ## The tree of a row -/

namespace OpTree

/-- The operators of the tree, from left to right. -/
def operators (tree : OpTree) : List String :=
  tree.links.map Prod.fst

/-- The leaves and operators of the tree, from left to right, are the row. -/
def Spans (tree : OpTree) (first : Expr) (links : List (String × Expr)) : Prop :=
  tree.first = first ∧ tree.links = links

/-- At every node, the operators on the left bind at least as tightly as that of the node and
those on the right bind tighter. -/
def Ordered : OpTree → Prop
  | .leaf _ => True
  | .node operator lhs rhs =>
    (∀ other ∈ lhs.operators, precedence operator ≤ precedence other) ∧
    (∀ other ∈ rhs.operators, precedence operator < precedence other) ∧
    lhs.Ordered ∧ rhs.Ordered

theorem Grouped.ordered {least : Int} {tree : OpTree} (hgrouped : tree.Grouped least) :
    tree.Ordered := by
  induction tree generalizing least with
  | leaf expr => trivial
  | node operator lhs rhs ihl ihr =>
    obtain ⟨-, hlhs, hrhs⟩ := hgrouped
    refine ⟨?_, ?_, ihl hlhs, ihr hrhs⟩
    · exact List.forall_mem_map.2 hlhs.le_precedence
    · exact List.forall_mem_map.2 hrhs.le_precedence

theorem Ordered.grouped {least : Int} {tree : OpTree} (hordered : tree.Ordered)
    (hleast : ∀ other ∈ tree.operators, least ≤ precedence other) : tree.Grouped least := by
  induction tree generalizing least with
  | leaf expr => trivial
  | node operator lhs rhs ihl ihr =>
    obtain ⟨hleft, hright, hlhs, hrhs⟩ := hordered
    refine ⟨hleast operator ?_, ihl hlhs hleft, ihr hrhs hright⟩
    simp [operators, links]

theorem first_snoc (operator : String) (operand : Expr) (tree : OpTree) :
    (tree.snoc operator operand).first = tree.first := by
  cases tree with
  | leaf expr => rfl
  | node root lhs rhs =>
    unfold snoc
    split <;> rfl

theorem links_snoc (operator : String) (operand : Expr) (tree : OpTree) :
    (tree.snoc operator operand).links = tree.links ++ [(operator, operand)] := by
  induction tree with
  | leaf expr => rfl
  | node root lhs rhs _ ihr =>
    unfold snoc
    split
    · rw [links, ihr, first_snoc, links, List.append_assoc, List.cons_append]
    · rfl

theorem spans_extend (tree : OpTree) (row : List (String × Expr)) :
    (tree.extend row).Spans tree.first (tree.links ++ row) := by
  induction row generalizing tree with
  | nil => exact ⟨rfl, (List.append_nil _).symm⟩
  | cons link row ih =>
    obtain ⟨hfirst, hlinks⟩ := ih (tree.snoc link.1 link.2)
    rw [first_snoc] at hfirst
    rw [links_snoc, List.append_assoc] at hlinks
    exact ⟨hfirst, hlinks⟩

theorem Grouped.extend {tree : OpTree} (hgrouped : tree.Grouped (-1))
    (row : List (String × Expr)) : (tree.extend row).Grouped (-1) := by
  induction row generalizing tree with
  | nil => exact hgrouped
  | cons link row ih => exact ih (hgrouped.snoc (neg_one_le_precedence link.1) link.2)

/-- The tree that grows at its right edge is the only ordered tree of its row. -/
theorem spans_ordered_iff {first : Expr} {row : List (String × Expr)} {tree : OpTree} :
    tree.Spans first row ∧ tree.Ordered ↔ tree = (leaf first).extend row := by
  constructor
  · rintro ⟨⟨rfl, rfl⟩, hordered⟩
    have hgrouped : tree.Grouped (-1) :=
      hordered.grouped fun other _ => neg_one_le_precedence other
    exact hgrouped.extend_links.symm
  · rintro rfl
    have hleaf : (leaf first).Grouped (-1) := trivial
    exact ⟨spans_extend (leaf first) row, (hleaf.extend row).ordered⟩

/-- The expression of the only ordered tree of a row. -/
theorem exists_ordered_iff {first result : Expr} {row : List (String × Expr)} :
    (∃ tree : OpTree, (∀ other : OpTree, other.Spans first row ∧ other.Ordered ↔ other = tree) ∧
      result = tree.toExpr) ↔ result = ((leaf first).extend row).toExpr := by
  constructor
  · rintro ⟨tree, htree, rfl⟩
    rw [← (htree _).1 (spans_ordered_iff.2 rfl)]
  · intro hresult
    exact ⟨_, fun other => spans_ordered_iff, hresult⟩

end OpTree

/-! ## What the parser of a chain reads -/

/-- The token is one of the operators. -/
def Token.IsOperator (token : Token) : Prop :=
  token.kind = .op ∧ token.text ∈ Operator.all

theorem Operator.precedence_nonneg_iff {text : String} :
    0 ≤ precedence text ↔ text ∈ Operator.all := by
  have hall : ∀ text ∈ Operator.all, 0 ≤ precedence text := by decide
  refine ⟨fun hnonneg => ?_, hall text⟩
  have hlisted : ∀ entry ∈ precedences, entry.1 ∈ Operator.all := by decide
  unfold precedence at hnonneg
  cases hlookup : precedences.lookup text with
  | none =>
    rw [hlookup] at hnonneg
    exact absurd hnonneg (by decide)
  | some value =>
    obtain ⟨before, after, hsplit, -⟩ := List.lookup_eq_some_iff.1 hlookup
    exact hlisted (text, value) (by simp [hsplit])

theorem Token.precedence_nonneg_iff {token : Token} : 0 ≤ token.precedence ↔ token.IsOperator := by
  unfold Token.precedence Token.IsOperator
  by_cases hkind : token.kind = .op
  · simp [hkind, Operator.precedence_nonneg_iff]
  · simp [hkind]

namespace Parser

/-- A row of operators and primaries is read: as long as the chain takes the current token, it is
passed over and the primary after it is read. -/
inductive Run (primary : Parser Expr) (takes : Token → Prop) :
    State → List (String × Expr) → State → Prop
  | stop {state : State} (hstop : ¬takes state.current) : Run primary takes state [] state
  | link {state middle last : State} {operand : Expr} {links : List (String × Expr)}
      (htakes : takes state.current) (hoperand : primary state.advance = .ok operand middle)
      (hrun : Run primary takes middle links last) :
      Run primary takes state ((state.current.text, operand) :: links) last

section Reading

variable {primary : Parser Expr} {least : Int} {state : State}

theorem linkOver_stop (hstop : state.current.precedence < least) :
    linkOver primary least state = .ok none state := by
  show (if state.current.precedence < least then pure none else _ : Parser _) state = _
  rw [if_pos hstop]
  rfl

theorem linkOver_link (hleast : least ≤ state.current.precedence) :
    linkOver primary least state =
      match primary state.advance with
      | .ok operand last => .ok (some (state.current.text, operand)) last
      | .error error last => .error error last := by
  show (if state.current.precedence < least then pure none else _ : Parser _) state = _
  rw [if_neg (Int.not_lt.2 hleast)]
  have hadvance : advance state = .ok state.current state.advance := rfl
  simp only [Bind.bind, EStateM.bind, hadvance]
  cases primary state.advance <;> rfl

/-- An operator is passed over, and the primary after it does not go back. -/
theorem remaining_lt_of_link (hprimary : ∀ {state last : State} {operand : Expr}, state.Valid →
      primary state = .ok operand last → last.remaining ≤ state.remaining)
    {last : State} {operand : Expr} (hoperator : state.current.IsOperator)
    (hoperand : primary state.advance = .ok operand last) :
    last.remaining < state.remaining := by
  have hvalid : state.advance.Valid := (State.next_valid_pending state.unread _).1
  have hle := hprimary hvalid hoperand
  have hlt : state.advance.remaining < state.remaining := by
    refine State.remaining_advance_lt fun heof => ?_
    rw [hoperator.1] at heof
    cases heof
  omega

/-- The parser of a chain reads the row of the operators that bind tightly enough.  The induction
is on what remains to be read. -/
theorem collect_linkOver_iff (hprimary : ∀ {state last : State} {operand : Expr}, state.Valid →
      primary state = .ok operand last → last.remaining ≤ state.remaining)
    (hleast : 0 ≤ least) {last : State} {links : List (String × Expr)} :
    collect (linkOver primary least) state = .ok links last ↔
      Run primary (fun token => least ≤ token.precedence) state links last := by
  have hoperator {token : Token} (htakes : least ≤ token.precedence) : token.IsOperator :=
    Token.precedence_nonneg_iff.1 (Int.le_trans hleast htakes)
  constructor
  · intro hcollect
    induction hremaining : state.remaining using Nat.strongRecOn generalizing state links with
    | ind remaining ih =>
      rw [collect] at hcollect
      by_cases htakes : least ≤ state.current.precedence
      · rw [linkOver_link htakes] at hcollect
        cases hoperand : primary state.advance with
        | error error middle =>
          rw [hoperand] at hcollect
          cases hcollect
        | ok operand middle =>
          have hlt := remaining_lt_of_link hprimary (hoperator htakes) hoperand
          rw [hoperand] at hcollect
          simp only [if_pos hlt] at hcollect
          cases hmore : collect (linkOver primary least) middle with
          | error error last' =>
            rw [hmore] at hcollect
            cases hcollect
          | ok more last' =>
            rw [hmore] at hcollect
            cases hcollect
            exact .link htakes hoperand (ih _ (hremaining ▸ hlt) hmore rfl)
      · rw [linkOver_stop (Int.not_le.1 htakes)] at hcollect
        cases hcollect
        exact .stop htakes
  · intro hrun
    induction hrun with
    | stop hstop => rw [collect, linkOver_stop (Int.not_le.1 hstop)]
    | link htakes hoperand _ ih =>
      have hlt := remaining_lt_of_link hprimary (hoperator htakes) hoperand
      rw [collect, linkOver_link htakes, hoperand]
      simp only [if_pos hlt, ih]

end Reading

/-! ## Levels -/

theorem remaining_le_of_primary (levels : Nat) {state last : State} {operand : Expr}
    (hvalid : state.Valid) (hprimary : primary levels state = .ok operand last) :
    last.remaining ≤ state.remaining := by
  have hrun := derives_primary levels 0 state.pending state hvalid rfl
  rw [hprimary] at hrun
  exact hrun.1.remaining_le

/-- A chain is read up to the first operator that binds looser than `least`, and grouped. -/
theorem chain_eq_ok_iff {levels : Nat} {least : Int} (hleast : 0 ≤ least) {lhs result : Expr}
    {state last : State} :
    chain levels least lhs state = .ok result last ↔
      ∃ links, Run (primary levels) (fun token => least ≤ token.precedence) state links last ∧
        result = ((OpTree.leaf lhs).extend links).toExpr := by
  have hlinks {links : List (String × Expr)} :
      collect (linkOver (primary levels) least) state = .ok links last ↔
        Run (primary levels) (fun token => least ≤ token.precedence) state links last :=
    collect_linkOver_iff (remaining_le_of_primary levels) hleast
  have hchain : chain levels least lhs state =
      match collect (linkOver (primary levels) least) state with
      | .ok links last => .ok ((OpTree.leaf lhs).extend links).toExpr last
      | .error error last => .error error last := by
    show (collect (linkOver (primary levels) least) >>= _ : Parser Expr) state = _
    simp only [Bind.bind, EStateM.bind]
    cases collect (linkOver (primary levels) least) state <;> rfl
  rw [hchain]
  constructor
  · intro hok
    cases hcollect : collect (linkOver (primary levels) least) state with
    | error error last' =>
      rw [hcollect] at hok
      cases hok
    | ok links last' =>
      rw [hcollect] at hok
      cases hok
      exact ⟨links, hlinks.1 hcollect, rfl⟩
  · rintro ⟨links, hrun, rfl⟩
    rw [hlinks.2 hrun]

/-- The row of a chain is grouped by the only tree in which the operators are ordered. -/
theorem chain_eq_ok_iff_ordered {levels : Nat} {least : Int} (hleast : 0 ≤ least)
    {lhs result : Expr} {state last : State} :
    chain levels least lhs state = .ok result last ↔
      ∃ links tree, Run (primary levels) (fun token => least ≤ token.precedence) state links last ∧
        (∀ other : OpTree, other.Spans lhs links ∧ other.Ordered ↔ other = tree) ∧
        result = tree.toExpr := by
  simp only [chain_eq_ok_iff hleast, ← OpTree.exists_ordered_iff, exists_and_left]

theorem expr_eq_ok_iff {levels : Nat} {result : Expr} {state last : State} :
    expr levels state = .ok result last ↔
      ∃ first middle, primary levels state = .ok first middle ∧
        chain levels 0 first middle = .ok result last := by
  have hexpr : expr levels state =
      match primary levels state with
      | .ok first middle => chain levels 0 first middle
      | .error error last => .error error last := by
    show (primary levels >>= chain levels 0 : Parser Expr) state = _
    simp only [Bind.bind, EStateM.bind]
    cases primary levels state <;> rfl
  rw [hexpr]
  cases primary levels state with
  | error error middle => simp
  | ok first middle =>
    refine ⟨fun hchain => ⟨first, middle, rfl, hchain⟩, ?_⟩
    rintro ⟨first', middle', hsame, hchain⟩
    cases hsame
    exact hchain

/-- An expression is read as a row of primaries with operators between them, and it is the only
tree of that row in which every operator binds at most as tightly as those on its left and looser
than those on its right.  The rest of a chain, with a least precedence, is read up to the first
token that is no operator of at least this precedence, and grouped in the same way. -/
theorem precedence_grouping (levels : Nat) (state last : State) (result : Expr) :
    (expr levels state = .ok result last ↔
      ∃ first middle links tree, primary levels state = .ok first middle ∧
        Run (primary levels) Token.IsOperator middle links last ∧
        (∀ other : OpTree, other.Spans first links ∧ other.Ordered ↔ other = tree) ∧
        result = tree.toExpr) ∧
    ∀ (least : Nat) (lhs : Expr), chain levels least lhs state = .ok result last ↔
      ∃ links tree, Run (primary levels) (fun token => least ≤ token.precedence) state links last ∧
        (∀ other : OpTree, other.Spans lhs links ∧ other.Ordered ↔ other = tree) ∧
        result = tree.toExpr := by
  constructor
  · simp only [expr_eq_ok_iff, chain_eq_ok_iff_ordered (Int.le_refl 0),
      Token.precedence_nonneg_iff, exists_and_left]
  · intro least lhs
    exact chain_eq_ok_iff_ordered (Int.natCast_nonneg least)

/-- Products group before sums, sums before comparisons, and equal operators to the left. -/
example : ((expr maxNesting).parse "a - b * c - d < e + f * 2 % g").1.toOption.map Expr.source =
    some "((a - (b * c)) - d) < (e + ((f * 2) % g))" := by
  decide +kernel

end Parser

end Frontend
