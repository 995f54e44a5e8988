import Frontend.Proofs.Binary64.Literal
import Frontend.Proofs.Canonical
import Frontend.Proofs.Spelling

/-!
# Written expressions

The source text of a canonical expression falls into tokens that derive the expression
again, without its tags.  The largest index of the derivation is the depth it starts at and
the nesting of the expression.

There is a lemma for each way of writing an expression, about texts and trees of any
origin; `writes_expr` puts them together along the tree.  An operand is derived as a primary
and everything else as an expression, which is why the two are proved side by side.
-/

namespace Frontend.Grammar

open Token

/-- The text falls into tokens that derive the tree at every depth, `levels` levels deep. -/
def Writes {α : Type} (derives : Nat → Nat → List Token → α → Prop) (text : List Char)
    (levels : Nat) (tree : α) : Prop :=
  ∃ tokens, Spells text tokens ∧ ∀ depth, derives depth (depth + levels) tokens tree

theorem Writes.intro {α : Type} {derives : Nat → Nat → List Token → α → Prop} {text : List Char}
    {levels : Nat} {tree : α} {top : Nat → Nat} (tokens : List Token)
    (hspells : Spells text tokens) (hderives : ∀ depth, derives depth (top depth) tokens tree)
    (htop : ∀ depth, top depth = depth + levels) : Writes derives text levels tree :=
  ⟨tokens, hspells, fun depth => htop depth ▸ hderives depth⟩

theorem Writes.imp {α : Type} {derives derives' : Nat → Nat → List Token → α → Prop}
    {text : List Char} {levels : Nat} {tree : α} (hwrites : Writes derives text levels tree)
    (himp : ∀ {depth top tokens}, derives depth top tokens tree → derives' depth top tokens tree) :
    Writes derives' text levels tree := by
  obtain ⟨tokens, hspells, hderives⟩ := hwrites
  exact ⟨tokens, hspells, fun depth => himp (hderives depth)⟩

/-! ## Literals and names -/

theorem writes_int {value : Int} (hlow : 0 ≤ value) (hhigh : value < 2 ^ 31) :
    Writes Primary (Text.integerText value).toList 0 (.int value none) := by
  obtain ⟨number, rfl⟩ := Int.eq_ofNat_of_zero_le hlow
  have htext : (Text.integerText number).toList = Text.decimalDigits number := by
    rw [Text.integerText, String.toList_ofList, if_neg (by omega), Int.natAbs_natCast]
  have hpoint : '.' ∉ Text.decimalDigits number := fun hmem =>
    absurd (Text.isDigit_of_mem_decimalDigits hmem) (by decide)
  refine ⟨[⟨.int, String.ofList (Text.decimalDigits number)⟩], fun rest hrest => ?_,
    fun depth => ?_⟩
  · rw [htext, words_number (Text.decimalDigits_ne_nil number) _ hrest, ofNumber,
      if_neg (by simp [hpoint])]
    · rfl
    · intro c hc
      simp [isNumberChar, Text.isDigit_of_mem_decimalDigits hc]
  · have hvalue :
        Text.decimalValue (String.ofList (Text.decimalDigits number)).toList = number := by
      rw [String.toList_ofList, Text.decimalValue_decimalDigits]
    have hint : Primary depth depth [⟨.int, String.ofList (Text.decimalDigits number)⟩] _ :=
      .int rfl (by rw [hvalue]; omega)
    rw [hvalue] at hint
    exact hint

theorem writes_float (rank : Fin Binary64.rankBound) :
    Writes Primary (Binary64.literal (.finite false rank)).toList 0
      (.float (.finite false rank) none) := by
  obtain ⟨whole, fraction, ⟨-, hdigits⟩, hliteral, hvalue⟩ := Binary64.exists_plain_literal rank
  refine ⟨[⟨.float, Binary64.literal (.finite false rank)⟩], fun rest hrest => ?_,
    fun depth => .float rfl hvalue rfl⟩
  rw [hliteral, String.toList_ofList, words_number (by simp) _ hrest, ofNumber,
    if_pos (by simp)]
  · rfl
  · intro c hc
    rw [List.mem_append, List.mem_cons] at hc
    rcases hc with hwhole | rfl | hfraction
    · simp [isNumberChar, hdigits c (List.mem_append_left _ hwhole)]
    · rfl
    · simp [isNumberChar, hdigits c (List.mem_append_right _ hfraction)]

theorem writes_bool (value : Bool) :
    Writes Primary (if value then "true" else "false").toList 0 (.bool value none) := by
  cases value with
  | true =>
    exact ⟨[⟨.bool, "true"⟩], fun rest hrest => words_word rfl hrest, fun depth => .bool rfl⟩
  | false =>
    exact ⟨[⟨.bool, "false"⟩], fun rest hrest => words_word rfl hrest, fun depth => .bool rfl⟩

theorem writes_var {name : String} (hname : isIdentifier name = true) :
    Writes Primary name.toList 0 (.var name none) :=
  ⟨[⟨.identifier, name⟩], fun _ hrest => words_identifier hname hrest, fun _ => .var rfl⟩

/-! ## Operators -/

theorem writes_single {text : List Char} {levels : Nat} {expr : Expr}
    (hexpr : Writes Primary text levels expr) : Writes Expression text levels expr := by
  obtain ⟨tokens, hspells, hderives⟩ := hexpr
  refine .intro (tokens ++ []) ?_ (fun depth => .chain (hderives depth) .nil)
    (fun depth => by omega)
  rwa [List.append_nil]

theorem writes_paren {text : List Char} {levels : Nat} {expr : Expr}
    (hexpr : Writes Expression text levels expr) :
    Writes Primary ('(' :: (text ++ [')'])) (levels + 1) expr := by
  obtain ⟨tokens, hspells, hderives⟩ := hexpr
  refine .intro _ (fun rest _ => ?_) (fun depth => .paren (hderives (depth + 1)))
    (fun depth => by omega)
  rw [List.cons_append, words_open, List.append_assoc, hspells _ rfl, List.singleton_append,
    words_close]
  simp

theorem writes_unary {text : List Char} {levels : Nat} {operand : Expr}
    (hoperand : Writes Primary text levels operand) :
    Writes Primary ('-' :: text) (levels + 1) (.unary "-" operand none) := by
  obtain ⟨tokens, hspells, hderives⟩ := hoperand
  refine .intro _ (fun rest hrest => ?_) (fun depth => .unary (hderives (depth + 1)))
    (fun depth => by omega)
  rw [List.cons_append, words_minus, hspells rest hrest, List.cons_append]

theorem writes_binary {operator : String} {text text' : List Char} {levels levels' : Nat}
    {lhs rhs : Expr} (hoperator : operator ∈ Operator.all)
    (hlhs : Writes Primary text levels lhs) (hrhs : Writes Primary text' levels' rhs) :
    Writes Expression (text ++ ' ' :: (operator.toList ++ ' ' :: text')) (max levels levels')
      (.binary operator lhs rhs none) := by
  obtain ⟨tokens, hspells, hderives⟩ := hlhs
  obtain ⟨tokens', hspells', hderives'⟩ := hrhs
  refine .intro (tokens ++ ⟨.op, operator⟩ :: (tokens' ++ [])) (fun rest hrest => ?_)
    (fun depth => .chain (hderives depth) (.cons rfl (hderives' depth) .nil))
    (fun depth => by omega)
  simp only [List.append_assoc, List.cons_append, List.append_nil]
  rw [hspells _ rfl, words_space, words_operator hoperator, hspells' rest hrest]

/-! ## Calls -/

theorem writes_noMoreArgs : Writes MoreArgs [] 0 [] :=
  ⟨[], fun _ _ => rfl, fun _ => .nil⟩

/-- What follows an argument, be it further arguments or the end, stands apart from it. -/
theorem writes_moreArgs {text more : List Char} {levels levels' : Nat} {arg : Expr}
    {args : List Expr} (harg : Writes Expression text levels arg)
    (hargs : Writes MoreArgs more levels' args)
    (hapart : ∀ rest, apart rest = true → apart (more ++ rest) = true) :
    Writes MoreArgs (',' :: ' ' :: (text ++ more)) (max (levels + 1) levels') (arg :: args) := by
  obtain ⟨tokens, hspells, hderives⟩ := harg
  obtain ⟨tokens', hspells', hderives'⟩ := hargs
  refine .intro _ (fun rest hrest => ?_)
    (fun depth => .cons (hderives (depth + 1)) (hderives' depth))
    (fun depth => by omega)
  simp only [List.append_assoc, List.cons_append, words_comma, words_space]
  rw [hspells _ (hapart rest hrest), hspells' rest hrest]

theorem writes_noArgs : Writes Args ['(', ')'] 0 [] :=
  ⟨_, fun rest _ => by simp, fun _ => .none⟩

theorem writes_args {text more : List Char} {levels levels' : Nat} {arg : Expr}
    {args : List Expr} (harg : Writes Expression text levels arg)
    (hargs : Writes MoreArgs more levels' args)
    (hapart : ∀ rest, apart rest = true → apart (more ++ rest) = true) :
    Writes Args ('(' :: (text ++ (more ++ [')']))) (max (levels + 1) levels') (arg :: args) := by
  obtain ⟨tokens, hspells, hderives⟩ := harg
  obtain ⟨tokens', hspells', hderives'⟩ := hargs
  refine .intro _ (fun rest _ => ?_) (fun depth => .some (hderives (depth + 1)) (hderives' depth))
    (fun depth => by omega)
  simp only [List.append_assoc, List.cons_append, words_open]
  rw [hspells _ (hapart _ rfl), hspells' _ rfl]
  simp

theorem writes_call {callee : String} {text : List Char} {levels : Nat} {args : List Expr}
    (hcallee : isIdentifier callee = true) (hargs : Writes Args ('(' :: text) levels args) :
    Writes Primary (callee.toList ++ '(' :: text) levels (.call callee args none) := by
  obtain ⟨tokens, hspells, hderives⟩ := hargs
  refine ⟨⟨.identifier, callee⟩ :: tokens, fun rest hrest => ?_,
    fun depth => .call rfl (hderives depth)⟩
  rw [List.append_assoc, words_identifier hcallee rfl, hspells rest hrest, List.cons_append]

/-! ## Trees -/

theorem toList_intercalate_cons (separator text : String) (texts : List String) :
    (separator.intercalate (text :: texts)).toList =
      text.toList ++ texts.flatMap fun text => separator.toList ++ text.toList := by
  induction texts generalizing text with
  | nil => simp
  | cons text' texts ih =>
    rw [String.intercalate_cons_cons, String.toList_append, String.toList_append, ih,
      List.flatMap_cons, List.append_assoc, List.append_assoc]

theorem apart_flatMap {α : Type} {write : α → List Char} (items : List α)
    (hwrite : ∀ item cs, apart (write item ++ cs) = true) (rest : List Char)
    (hrest : apart rest = true) : apart (items.flatMap write ++ rest) = true := by
  cases items with
  | nil => exact hrest
  | cons item items =>
    rw [List.flatMap_cons, List.append_assoc]
    exact hwrite item _

/-- The text of the expression derives it, and as a primary if it needs no parentheses. -/
structure WritesExpr (expr : Expr) : Prop where
  expression : Writes Expression expr.source.toList expr.nesting expr.untagged
  primary : expr.isBinary = false →
    Writes Primary expr.source.toList expr.nesting expr.untagged

theorem WritesExpr.of_primary {expr : Expr}
    (hprimary : Writes Primary expr.source.toList expr.nesting expr.untagged) : WritesExpr expr :=
  ⟨writes_single hprimary, fun _ => hprimary⟩

theorem WritesExpr.operand {expr : Expr} (hexpr : WritesExpr expr) :
    Writes Primary (expr.operandText expr.source).toList (expr.operandNesting expr.nesting)
      expr.untagged := by
  unfold Expr.operandText Expr.operandNesting
  cases hbinary : expr.isBinary with
  | true =>
    have hparen := writes_paren hexpr.expression
    simpa using hparen
  | false => exact hexpr.primary hbinary

/-- Further arguments as they are written. -/
def moreArgsText (args : List Expr) : List Char :=
  (Expr.sourceAll args).flatMap fun text => ", ".toList ++ text.toList

theorem apart_moreArgsText (args : List Expr) (rest : List Char) (hrest : apart rest = true) :
    apart (moreArgsText args ++ rest) = true :=
  apart_flatMap _ (fun _ _ => rfl) rest hrest

mutual

theorem writes_expr : (expr : Expr) → expr.isCanonical = true → WritesExpr expr
  | .int value _, hcanonical => by
    simp only [Expr.isCanonical, Bool.and_eq_true, decide_eq_true_eq] at hcanonical
    exact .of_primary (writes_int hcanonical.1 hcanonical.2)
  | .float (.finite false rank) _, _ => .of_primary (writes_float rank)
  | .bool value _, _ => .of_primary (writes_bool value)
  | .var name _, hcanonical => .of_primary (writes_var hcanonical)
  | .unary operator operand _, hcanonical => by
    simp only [Expr.isCanonical, Bool.and_eq_true, beq_iff_eq] at hcanonical
    obtain ⟨rfl, hoperand⟩ := hcanonical
    have hunary := writes_unary (writes_expr operand hoperand).operand
    refine .of_primary ?_
    simpa [Expr.source, Expr.nesting, Expr.untagged] using hunary
  | .binary operator lhs rhs _, hcanonical => by
    simp only [Expr.isCanonical, Bool.and_eq_true, List.contains_iff_mem] at hcanonical
    obtain ⟨⟨hoperator, hlhs⟩, hrhs⟩ := hcanonical
    have hbinary := writes_binary hoperator (writes_expr lhs hlhs).operand
      (writes_expr rhs hrhs).operand
    refine ⟨?_, nofun⟩
    simpa [Expr.source, Expr.nesting, Expr.untagged] using hbinary
  | .call callee args _, hcanonical => by
    simp only [Expr.isCanonical, Bool.and_eq_true] at hcanonical
    have hcall := writes_call hcanonical.1 (writes_argsOf args hcanonical.2)
    refine .of_primary ?_
    simpa [Expr.source, Expr.nesting, Expr.untagged] using hcall

theorem writes_argsOf : (args : List Expr) → Expr.areCanonical args = true →
    Writes Args ('(' :: ((", ".intercalate (Expr.sourceAll args)).toList ++ [')']))
      (Expr.nestingOfArgs args) (Expr.untaggedAll args)
  | [], _ => writes_noArgs
  | arg :: args, hcanonical => by
    simp only [Expr.areCanonical, Bool.and_eq_true] at hcanonical
    rw [Expr.sourceAll, toList_intercalate_cons, List.append_assoc]
    exact writes_args (writes_expr arg hcanonical.1).expression
      (writes_moreArgsOf args hcanonical.2) (apart_moreArgsText args)

theorem writes_moreArgsOf : (args : List Expr) → Expr.areCanonical args = true →
    Writes MoreArgs (moreArgsText args) (Expr.nestingOfArgs args) (Expr.untaggedAll args)
  | [], _ => writes_noMoreArgs
  | arg :: args, hcanonical => by
    simp only [Expr.areCanonical, Bool.and_eq_true] at hcanonical
    exact writes_moreArgs (writes_expr arg hcanonical.1).expression
      (writes_moreArgsOf args hcanonical.2) (apart_moreArgsText args)

end

end Frontend.Grammar
