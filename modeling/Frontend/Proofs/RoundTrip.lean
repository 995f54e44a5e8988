import Frontend.Proofs.Acceptance
import Frontend.Proofs.Parsed
import Frontend.Proofs.Writing.Module

/-!
# Source text is parsed back

Writing a canonical module and parsing the text gives the module again, but for its tags,
as long as the text nests no deeper than the parser goes.  Every parsed module is canonical,
so the same holds of what was parsed before.

The limit matters there.  A chain of operators is parsed without nesting, however long it is,
while its text has parentheses around every operand that is a chain itself.  `parse_chain`
and `nesting_chain` give programs that are accepted and whose text is not.
-/

open Frontend.Grammar Frontend.Parser

namespace Frontend.Module

theorem parse_source {module : Module} (hcanonical : module.isCanonical = true) :
    (Module.parse module.name module.source).1 =
      if module.nesting ≤ maxNesting then .ok module.untagged
      else .error (.nestingTooDeep maxNesting) :=
  parse_of_declarations (declarations_of_source hcanonical)

/-- A canonical module is parsed back from its text if the text nests at most as deep as the parser
goes, and else its text is refused for that reason. -/
theorem source_round_trip (module : Module) (hcanonical : module.isCanonical = true) :
    (module.nesting ≤ maxNesting → ∃ parsed,
      (Module.parse module.name module.source).1 = .ok parsed ∧
      module.equals parsed = true ∧ parsed.source = module.source) ∧
    (maxNesting < module.nesting →
      (Module.parse module.name module.source).1 = .error (.nestingTooDeep maxNesting)) := by
  rw [parse_source hcanonical]
  constructor
  · intro hle
    rw [if_pos hle]
    exact ⟨module.untagged, rfl, equals_untagged hcanonical, source_untagged module⟩
  · intro hlt
    rw [if_neg (Nat.not_le.2 hlt)]

/-- A module with every kind of statement, some of its tags filled. -/
def branchingModule : Module :=
  let tenth : Expr := .float (Binary64.ofQuotient 1 10) (some "float")
  ⟨"m", [⟨⟨"g", [⟨"x", "float"⟩], "bool"⟩, none⟩,
    ⟨⟨"f", [⟨"x", "float"⟩, ⟨"n", "int"⟩], "float"⟩, some (.block [
      .letVar "y" "float",
      .assign "y" (.unary "-" (.binary "*" (.var "x" (some "float")) tenth none) none),
      .assign "_" (.call "g" [.binary "-" (.var "y" none) tenth none] none),
      .ifElse (.call "g" [.var "y" none] (some "bool"))
        (.block [.ret (.var "y" none)])
        (.ifElse (.binary "<=" (.var "n" none) (.int 0 none) none) (.block [])
          (.block [.block [.ret tenth]])),
      .ret (.var "x" none)])⟩]⟩

/-- A module that returns the truth value negated `count` times. -/
def negationModule (count : Nat) : Module :=
  ⟨"m", [⟨⟨"f", [], "bool"⟩,
    some (.block [.ret (count.repeat (fun expr => .unary "-" expr none) (.bool true none))])⟩]⟩

/-- The first module is parsed back, and the second, which is one level too deep, is refused. -/
theorem round_trip_branching_and_negation :
    (∃ parsed, (Module.parse "m" branchingModule.source).1 = .ok parsed ∧
      branchingModule.equals parsed = true ∧ parsed.source = branchingModule.source) ∧
    (Module.parse "m" (negationModule maxNesting).source).1 =
      .error (.nestingTooDeep maxNesting) :=
  ⟨(source_round_trip branchingModule (by decide +kernel)).1 (by decide +kernel),
    (source_round_trip (negationModule maxNesting) (by decide +kernel)).2
      (by decide +kernel)⟩

/-! ## Text of parsed modules -/

theorem plain_of_parse {name source : String} {module : Module}
    (hparse : (Module.parse name source).1 = .ok module) :
    module.name = name ∧ ∀ decl ∈ module.decls, decl.Plain := by
  obtain ⟨hname, top, -, hdecls⟩ := parse_eq_ok_iff.1 hparse
  exact ⟨hname, plain_of_declarations hdecls fun _ => Token.lexed_of_mem_words⟩

/-- The text of a parsed module is parsed to an equal one exactly if it nests at most as deep as the
parser goes, and else it is refused for that reason. -/
theorem reparse_accepts_iff {name source : String} {module : Module}
    (hparse : (Module.parse name source).1 = .ok module) :
    ((∃ parsed, (Module.parse name module.source).1 = .ok parsed ∧ module.equals parsed = true) ↔
      module.nesting ≤ maxNesting) ∧
    (maxNesting < module.nesting →
      (Module.parse name module.source).1 = .error (.nestingTooDeep maxNesting)) := by
  obtain ⟨rfl, hplain⟩ := plain_of_parse hparse
  have hcanonical : module.isCanonical = true :=
    List.all_eq_true.2 fun decl hdecl => (hplain decl hdecl).canonical
  rw [parse_source hcanonical]
  refine ⟨⟨?_, fun hle => ?_⟩, fun hlt => if_neg (Nat.not_le.2 hlt)⟩
  · rintro ⟨parsed, hparsed, -⟩
    split at hparsed
    · assumption
    · cases hparsed
  · exact ⟨module.untagged, if_pos hle, equals_untagged hcanonical⟩

/-! ## Long chains -/

/-- The sum of `count + 1` ones, grouped to the left. -/
def chainExpr : Nat → Expr
  | 0 => .int 1 none
  | count + 1 => .binary "+" (chainExpr count) (.int 1 none) none

/-- A function without parameters. -/
def chainProto : Prototype := ⟨"f", [], "int"⟩

/-- A function that returns a chain. -/
def chainDecl (count : Nat) : Decl :=
  ⟨chainProto, some (.block [.ret (chainExpr count)])⟩

/-- The function as one writes it, without parentheses in the chain. -/
def chainText (count : Nat) : String :=
  "def " ++ chainProto.source ++ " \x7b\n  return 1" ++ String.join (List.replicate count " + 1") ++
    "\n\x7d"

/-- The token of the number one. -/
def one : Token := ⟨.int, "1"⟩

theorem primary_one (depth : Nat) : Primary depth depth [one] (.int 1 none) :=
  .int rfl (by decide)

/-- The tokens of a chain after its first member. -/
def chainTokens : Nat → List Token
  | 0 => []
  | count + 1 => ⟨.op, "+"⟩ :: one :: chainTokens count

theorem links_chain (depth count : Nat) :
    Links depth depth (chainTokens count) (List.replicate count ("+", .int 1 none)) := by
  induction count with
  | zero => exact .nil
  | succ count ih =>
    have hplus : (⟨.op, "+"⟩ : Token).kind = .op := rfl
    have hlinks := Links.cons hplus (primary_one depth) ih
    rw [Nat.max_self] at hlinks
    exact hlinks

/-- The chain under construction.  Equal operators group to the left, so its root is replaced at
every step. -/
def chainTree : Nat → OpTree
  | 0 => .leaf (.int 1 none)
  | count + 1 => .node "+" (chainTree count) (.leaf (.int 1 none))

theorem snoc_chainTree (count : Nat) :
    (chainTree count).snoc "+" (.int 1 none) = chainTree (count + 1) := by
  cases count with
  | zero => rfl
  | succ count =>
    rw [chainTree, OpTree.snoc, if_neg (Int.lt_irrefl _)]
    rfl

theorem toExpr_chainTree (count : Nat) : (chainTree count).toExpr = chainExpr count := by
  induction count with
  | zero => rfl
  | succ count ih => rw [chainTree, OpTree.toExpr, ih, OpTree.toExpr, chainExpr]

theorem ofChain_replicate (count : Nat) :
    Expr.ofChain (.int 1 none) (List.replicate count ("+", .int 1 none)) = chainExpr count := by
  rw [← toExpr_chainTree]
  unfold Expr.ofChain
  congr 1
  induction count with
  | zero => rfl
  | succ count ih =>
    rw [List.replicate_succ', List.foldl_append, ih]
    exact snoc_chainTree count

theorem words_one {rest : List Char} (hrest : Token.apart rest = true) :
    Token.words ('1' :: rest) = one :: Token.words rest := by
  refine Token.words_number (List.cons_ne_nil '1' []) (fun c hc => ?_) hrest
  rw [List.mem_singleton.1 hc]
  rfl

theorem words_plus (cs : List Char) :
    Token.words ('+' :: ' ' :: cs) = ⟨.op, "+"⟩ :: Token.words cs :=
  Token.words_operator (show "+" ∈ Operator.all by decide) cs

theorem apart_chain (count : Nat) {rest : List Char} (hrest : Token.apart rest = true) :
    Token.apart ((List.replicate count " + 1").flatMap String.toList ++ rest) = true := by
  cases count with
  | zero => exact hrest
  | succ count => rfl

theorem words_chain (count : Nat) {rest : List Char} (hrest : Token.apart rest = true) :
    Token.words ((List.replicate count " + 1").flatMap String.toList ++ rest) =
      chainTokens count ++ Token.words rest := by
  induction count with
  | zero => rfl
  | succ count ih =>
    show Token.words (' ' :: '+' :: ' ' :: '1' ::
      ((List.replicate count " + 1").flatMap String.toList ++ rest)) = _
    rw [Token.words_space, words_plus, words_one (apart_chain count hrest), ih]
    rfl

/-- A chain is no deeper than its members. -/
theorem writes_chain (count : Nat) :
    Writes Expression ('1' :: (List.replicate count " + 1").flatMap String.toList) 0
      (chainExpr count) := by
  refine .intro ([one] ++ chainTokens count) (fun rest hrest => ?_) (fun depth => ?_)
    (fun depth => Nat.max_self depth)
  · rw [List.cons_append, words_one (apart_chain count hrest), words_chain count hrest]
    rfl
  · rw [← ofChain_replicate]
    exact .chain (primary_one depth) (links_chain depth count)

/-- Chains of any length are accepted. -/
theorem parse_chain (name : String) (count : Nat) :
    (Module.parse name (chainText count)).1 = .ok ⟨name, [chainDecl count]⟩ := by
  let line := '\n' :: (List.replicate 2 ' ' ++ (("return".toList ++ ' ' :: '1' ::
    (List.replicate count " + 1").flatMap String.toList) ++ []))
  have hstmts : Writes Statements line 1 [.ret (chainExpr count)] :=
    writes_statements 2 (writes_ret (writes_chain count)) writes_noStatements fun _ hrest => hrest
  obtain ⟨tokens, hspells, hdecl⟩ := spells_defined (show chainProto.isCanonical = true by decide)
    (writes_block (.inr ⟨0, rfl⟩) hstmts)
  have htext : (chainText count).toList = "def".toList ++ ' ' :: (chainProto.source.toList ++
      ' ' :: '\x7b' :: (line ++ ('\n' :: List.replicate 0 ' ' ++ ['\x7d']))) := by
    simp [chainText, line]
  have hdecls : Declarations 1 (Token.words (chainText count).toList) [chainDecl count] := by
    rw [htext, hspells.words_eq, ← List.append_nil tokens]
    exact .cons hdecl .nil
  rw [parse_of_declarations hdecls, if_pos (by decide)]

theorem nesting_chainExpr (count : Nat) : (chainExpr (count + 1)).nesting = count := by
  induction count with
  | zero => rfl
  | succ count ih =>
    rw [chainExpr, Expr.nesting, ih]
    simp [chainExpr, Expr.operandNesting, Expr.isBinary, Expr.nesting]

theorem nesting_chain (name : String) (count : Nat) :
    (Module.mk name [chainDecl (count + 1)]).nesting = count + 1 := by
  have hnesting := nesting_chainExpr count
  simp [Module.nesting, nestingOfDecls, Decl.nesting, chainDecl, Stmt.branchNesting, Stmt.isBlock,
    Stmt.nesting, Stmt.nestingOfAll, hnesting]

/-- The longest chain whose text is parsed back, and the next one, whose text is refused. -/
theorem reparse_chains :
    (∃ module, (Module.parse "m" (chainText maxNesting)).1 = .ok module ∧
      ∃ parsed, (Module.parse "m" module.source).1 = .ok parsed ∧
        module.equals parsed = true) ∧
    ∃ module, (Module.parse "m" (chainText (maxNesting + 1))).1 = .ok module ∧
      (Module.parse "m" module.source).1 = .error (.nestingTooDeep maxNesting) := by
  refine ⟨⟨_, parse_chain "m" maxNesting, ?_⟩, ⟨_, parse_chain "m" (maxNesting + 1), ?_⟩⟩
  · refine (reparse_accepts_iff (parse_chain "m" maxNesting)).1.2 ?_
    exact Nat.le_of_eq (nesting_chain "m" 255)
  · refine (reparse_accepts_iff (parse_chain "m" (maxNesting + 1))).2 ?_
    rw [nesting_chain]
    exact Nat.lt_succ_self maxNesting

end Frontend.Module
