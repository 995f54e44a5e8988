import Frontend.Tree.Dump
import Frontend.Proofs.Binary64.Literal
import Frontend.Proofs.Dump.Outline
import Frontend.Proofs.Signatures

/-!
# Dumps as outlines

The dump of a tree is the text of an outline: each node of the tree has the name of its shape, and
its names, operators, types and literals are words.

* `toList_dump` says so for each kind of tree.  The dump of a module has the outlines of its
  declarations on lines of their own.
* `isProper_outline`: in a plain tree all of these are words indeed, free of marks.
* `outline_inj`: a plain tree can be told from its outline.  Literals of different types can have
  the same digits, but they have the type beside them.

So a plain tree can be told from its dump (`dump_inj`, `Module.decls_eq_of_dump`).
-/

namespace Frontend

/-! ## Words -/

namespace Outline

theorem isUnmarked_of_identifier {name : String} (hname : Token.isIdentifier name = true) :
    isUnmarked name = true := by
  obtain ⟨⟨c, cs, hlist, -⟩, hall⟩ := Token.toList_of_identifier hname
  exact isUnmarked_of_all rfl (by simp [hlist]) hall

theorem isUnmarked_of_operator {operator : String} (hoperator : operator ∈ Operator.all) :
    isUnmarked operator = true := by
  have hall : ∀ operator ∈ Operator.all, isUnmarked operator = true := by decide
  exact hall operator hoperator

end Outline

namespace Text

theorem toList_integerText {value : Int} (hvalue : 0 ≤ value) :
    (integerText value).toList = decimalDigits value.natAbs := by
  rw [integerText, if_neg (Int.not_lt.2 hvalue), String.toList_ofList]

theorem isUnmarked_integerText {value : Int} (hvalue : 0 ≤ value) :
    Outline.isUnmarked (integerText value) = true := by
  have htext := toList_integerText hvalue
  have hdigits : ∀ c ∈ (integerText value).toList, c.isDigit = true := by
    rw [htext]
    exact fun c => isDigit_of_mem_decimalDigits
  exact Outline.isUnmarked_of_all rfl (htext ▸ decimalDigits_ne_nil _) hdigits

theorem integerText_inj {value value' : Int} (hvalue : 0 ≤ value) (hvalue' : 0 ≤ value')
    (htext : integerText value = integerText value') : value = value' := by
  have hdigits := congrArg String.toList htext
  rw [toList_integerText hvalue, toList_integerText hvalue'] at hdigits
  have hnatAbs := congrArg decimalValue hdigits
  rw [decimalValue_decimalDigits, decimalValue_decimalDigits] at hnatAbs
  omega

end Text

namespace Binary64

theorem isUnmarked_text (rank : Fin rankBound) :
    Outline.isUnmarked (text (.finite false rank)) = true := by
  have htext : (text (.finite false rank)).toList = magnitudeText rank := by
    simp [text]
  have hnumber {c : Char} (hdigit : c.isDigit = true) : Token.isNumberChar c = true := by
    simp [Token.isNumberChar, hdigit]
  rcases magnitudeText_cases rank with ⟨⟨hne, hdigits⟩, -⟩ | ⟨whole, fraction, hplain, hsplit, -⟩
  · rw [List.append_nil] at hdigits
    exact Outline.isUnmarked_of_all rfl (htext ▸ hne) (htext ▸ hdigits)
  · have hnumbers : ∀ c ∈ (text (.finite false rank)).toList, Token.isNumberChar c = true := by
      rw [htext, hsplit]
      intro c hc
      rcases List.mem_append.1 hc with hwhole | hfraction
      · exact hnumber (hplain.digits c (List.mem_append_left _ hwhole))
      · rcases List.mem_cons.1 hfraction with rfl | hfraction
        · rfl
        · exact hnumber (hplain.digits c (List.mem_append_right _ hfraction))
    exact Outline.isUnmarked_of_all rfl (by simp [htext, hsplit]) hnumbers

/-- The text of a number without a sign is read back as the number. -/
theorem text_inj {rank rank' : Fin rankBound}
    (htext : text (.finite false rank) = text (.finite false rank')) : rank = rank' := by
  have hliteral : literal (.finite false rank) = literal (.finite false rank') := by
    unfold literal
    rw [htext]
    rfl
  obtain ⟨_, _, -, -, hread⟩ := exists_plain_literal rank
  obtain ⟨_, _, -, -, hread'⟩ := exists_plain_literal rank'
  rw [hliteral, hread'] at hread
  cases hread
  rfl

end Binary64

/-! ## Expressions -/

namespace Expr

/-- The value of a canonical float literal is finite and has no sign. -/
theorem exists_finite_of_canonical {value : Binary64} {tag : Tag}
    (hcanonical : (float value tag).isCanonical = true) : ∃ rank, value = .finite false rank := by
  match value, hcanonical with
  | .finite false rank, _ => exact ⟨rank, rfl⟩

/-- The outline of a literal. -/
def literalOutline (value : String) (type : TypeName) : Outline :=
  .node "Literal" [.word value, .word type]

mutual

/-- The outline that the dump of an expression writes. -/
def outline : Expr → Outline
  | .int value _ => literalOutline (Text.integerText value) intType
  | .float value _ => literalOutline value.text floatType
  | .bool value _ => literalOutline (if value then "true" else "false") boolType
  | .var name _ => .node "Variable" [.word name]
  | .unary operator operand _ => .node "UnaryExpr" [.word operator, operand.outline]
  | .binary operator lhs rhs _ =>
    .node "BinaryExpr" [.word operator, lhs.outline, rhs.outline]
  | .call callee args _ => .node "CallExpr" [.word callee, .row (outlineOfAll args)]

/-- The outlines of several expressions. -/
def outlineOfAll : List Expr → List Outline
  | [] => []
  | expr :: exprs => expr.outline :: outlineOfAll exprs

end

theorem toList_dumpLiteral (value : String) (type : TypeName) :
    (dumpLiteral value type).toList = (literalOutline value type).text := by
  show ("Literal(" ++ value ++ ", " ++ type ++ ")").toList = _
  simp [literalOutline]

-- The equations of `dump` are slow to unfold, so the goals show what they would give.
mutual

theorem toList_dump : (expr : Expr) → expr.dump.toList = expr.outline.text
  | .int .. | .float .. | .bool .. => toList_dumpLiteral _ _
  | .var name _ => by
    show ("Variable(" ++ name ++ ")").toList = _
    simp [outline]
  | .unary operator operand _ => by
    show ("UnaryExpr(" ++ operator ++ ", " ++ operand.dump ++ ")").toList = _
    simp [outline, toList_dump operand]
  | .binary operator lhs rhs _ => by
    show ("BinaryExpr(" ++ operator ++ ", " ++ lhs.dump ++ ", " ++ rhs.dump ++ ")").toList = _
    simp [outline, toList_dump lhs, toList_dump rhs]
  | .call callee args _ => by
    show ("CallExpr(" ++ callee ++ ", [" ++ ", ".intercalate (dumpAll args) ++ "])").toList = _
    simp [outline, Outline.toList_intercalate ", " (toList_dumpAll args)]

theorem toList_dumpAll : (exprs : List Expr) →
    (dumpAll exprs).map String.toList = (outlineOfAll exprs).map Outline.text
  | [] => rfl
  | expr :: exprs => by
    simp only [dumpAll, outlineOfAll, List.map_cons, toList_dump expr, toList_dumpAll exprs]

end

mutual

theorem isProper_outline : (expr : Expr) → expr.Plain → expr.outline.isProper = true
  | .int value _, hplain => by
    have hcanonical := hplain.canonical
    simp only [isCanonical, Bool.and_eq_true, decide_eq_true_eq] at hcanonical
    have hvalue := Text.isUnmarked_integerText hcanonical.1
    have htype : Outline.isUnmarked intType = true := rfl
    exact Outline.isProper_node rfl (by simp [hvalue, htype])
  | .float (.finite false rank) _, _ => by
    have hvalue := Binary64.isUnmarked_text rank
    have htype : Outline.isUnmarked floatType = true := rfl
    exact Outline.isProper_node rfl (by simp [hvalue, htype])
  | .bool value _, _ => by
    cases value <;> rfl
  | .var name _, hplain => by
    have hname := Outline.isUnmarked_of_identifier hplain.canonical
    exact Outline.isProper_node rfl (by simp [hname])
  | .unary operator operand _, hplain => by
    obtain ⟨-, rfl, hoperand⟩ := plain_unary_iff.1 hplain
    have hminus : Outline.isUnmarked "-" = true := rfl
    exact Outline.isProper_node rfl (by simp [hminus, isProper_outline operand hoperand])
  | .binary operator lhs rhs _, hplain => by
    obtain ⟨-, hoperator, hlhs, hrhs⟩ := plain_binary_iff.1 hplain
    have hword := Outline.isUnmarked_of_operator hoperator
    exact Outline.isProper_node rfl
      (by simp [hword, isProper_outline lhs hlhs, isProper_outline rhs hrhs])
  | .call callee args _, hplain => by
    obtain ⟨-, hcallee, hargs⟩ := plain_call_iff.1 hplain
    have hword := Outline.isUnmarked_of_identifier hcallee
    exact Outline.isProper_node rfl (by simp [hword, areProper_outlineOfAll args hargs])

theorem areProper_outlineOfAll : (exprs : List Expr) → PlainAll exprs →
    Outline.areProper (outlineOfAll exprs) = true
  | [], _ => rfl
  | expr :: exprs, hplain => by
    obtain ⟨hexpr, hexprs⟩ := plainAll_cons_iff.1 hplain
    simp [outlineOfAll, isProper_outline expr hexpr, areProper_outlineOfAll exprs hexprs]

end

theorem literalOutline_inj {value value' : String} {type type' : TypeName}
    (houtline : literalOutline value type = literalOutline value' type') :
    value = value' ∧ type = type' := by
  simpa [literalOutline] using houtline

-- Two outlines of different shapes have different names, or they are of literals of two types.
mutual

/-- Plain expressions with the same outline are the same. -/
theorem outline_inj : (expr : Expr) → expr.Plain → (other : Expr) → other.Plain →
    expr.outline = other.outline → expr = other
  | .int value tag, hplain, other, hother, houtline => by
    cases other with
    | int value' tag' =>
      obtain ⟨rfl, rfl⟩ : tag = none ∧ tag' = none := ⟨hplain.tag, hother.tag⟩
      have hcanonical := hplain.canonical
      have hcanonical' := hother.canonical
      simp only [isCanonical, Bool.and_eq_true, decide_eq_true_eq] at hcanonical hcanonical'
      rw [Text.integerText_inj hcanonical.1 hcanonical'.1 (literalOutline_inj houtline).1]
    | float _ _ | bool _ _ => exact absurd (literalOutline_inj houtline).2 (by decide)
    | _ => simp [outline, literalOutline] at houtline
  | .float (.finite false rank) tag, hplain, other, hother, houtline => by
    cases other with
    | float value' tag' =>
      obtain ⟨rfl, rfl⟩ : tag = none ∧ tag' = none := ⟨hplain.tag, hother.tag⟩
      obtain ⟨rank', rfl⟩ := exists_finite_of_canonical hother.canonical
      rw [Binary64.text_inj (literalOutline_inj houtline).1]
    | int _ _ | bool _ _ => exact absurd (literalOutline_inj houtline).2 (by decide)
    | _ => simp [outline, literalOutline] at houtline
  | .bool value tag, hplain, other, hother, houtline => by
    cases other with
    | bool value' tag' =>
      obtain ⟨rfl, rfl⟩ : tag = none ∧ tag' = none := ⟨hplain.tag, hother.tag⟩
      have hvalue := (literalOutline_inj houtline).1
      cases value <;> cases value' <;> simp_all
    | int _ _ | float _ _ => exact absurd (literalOutline_inj houtline).2 (by decide)
    | _ => simp [outline, literalOutline] at houtline
  | .var name tag, hplain, other, hother, houtline => by
    cases other with
    | var name' tag' =>
      obtain ⟨rfl, rfl⟩ : tag = none ∧ tag' = none := ⟨hplain.tag, hother.tag⟩
      obtain rfl : name = name' := by simpa [outline] using houtline
      rfl
    | _ => simp [outline, literalOutline] at houtline
  | .unary operator operand tag, hplain, other, hother, houtline => by
    cases other with
    | unary operator' operand' tag' =>
      obtain ⟨rfl, -, hoperand⟩ := plain_unary_iff.1 hplain
      obtain ⟨rfl, -, hoperand'⟩ := plain_unary_iff.1 hother
      obtain ⟨rfl, hinner⟩ : operator = operator' ∧ operand.outline = operand'.outline := by
        simpa [outline] using houtline
      rw [outline_inj operand hoperand operand' hoperand' hinner]
    | _ => simp [outline, literalOutline] at houtline
  | .binary operator lhs rhs tag, hplain, other, hother, houtline => by
    cases other with
    | binary operator' lhs' rhs' tag' =>
      obtain ⟨rfl, -, hlhs, hrhs⟩ := plain_binary_iff.1 hplain
      obtain ⟨rfl, -, hlhs', hrhs'⟩ := plain_binary_iff.1 hother
      obtain ⟨rfl, hleft, hright⟩ :
          operator = operator' ∧ lhs.outline = lhs'.outline ∧ rhs.outline = rhs'.outline := by
        simpa [outline] using houtline
      rw [outline_inj lhs hlhs lhs' hlhs' hleft, outline_inj rhs hrhs rhs' hrhs' hright]
    | _ => simp [outline, literalOutline] at houtline
  | .call callee args tag, hplain, other, hother, houtline => by
    cases other with
    | call callee' args' tag' =>
      obtain ⟨rfl, -, hargs⟩ := plain_call_iff.1 hplain
      obtain ⟨rfl, -, hargs'⟩ := plain_call_iff.1 hother
      obtain ⟨rfl, houtlines⟩ : callee = callee' ∧ outlineOfAll args = outlineOfAll args' := by
        simpa [outline] using houtline
      rw [outlineOfAll_inj args hargs args' hargs' houtlines]
    | _ => simp [outline, literalOutline] at houtline

theorem outlineOfAll_inj : (exprs : List Expr) → PlainAll exprs → (others : List Expr) →
    PlainAll others → outlineOfAll exprs = outlineOfAll others → exprs = others
  | [], _, [], _, _ => rfl
  | expr :: exprs, hplain, other :: others, hothers, houtlines => by
    obtain ⟨hexpr, hexprs⟩ := plainAll_cons_iff.1 hplain
    obtain ⟨hother, hothers⟩ := plainAll_cons_iff.1 hothers
    obtain ⟨houtline, houtlines⟩ := List.cons.inj houtlines
    rw [outline_inj expr hexpr other hother houtline,
      outlineOfAll_inj exprs hexprs others hothers houtlines]

end

theorem dump_inj {expr other : Expr} (hplain : expr.Plain) (hother : other.Plain)
    (hdump : expr.dump = other.dump) : expr = other := by
  apply outline_inj expr hplain other hother
  apply Outline.text_inj (expr.isProper_outline hplain) (other.isProper_outline hother)
  rw [← expr.toList_dump, ← other.toList_dump, hdump]

end Expr

/-! ## Statements -/

namespace Stmt

mutual

/-- The outline that the dump of a statement writes. -/
def outline : Stmt → Outline
  | .letVar name type => .node "Let" [.word name, .word type]
  | .assign target value => .node "Assign" [.word target, value.outline]
  | .ifElse condition thenBranch elseBranch =>
    .node "If" [condition.outline, thenBranch.outline, elseBranch.outline]
  | .ret value => .node "Return" [value.outline]
  | .block stmts => .node "Compound" [.row (outlineOfAll stmts)]

/-- The outlines of several statements. -/
def outlineOfAll : List Stmt → List Outline
  | [] => []
  | stmt :: stmts => stmt.outline :: outlineOfAll stmts

end

mutual

theorem toList_dump : (stmt : Stmt) → stmt.dump.toList = stmt.outline.text
  | .letVar name type => by
    show ("Let(" ++ name ++ ", " ++ type ++ ")").toList = _
    simp [outline]
  | .assign target value => by
    show ("Assign(" ++ target ++ ", " ++ value.dump ++ ")").toList = _
    simp [outline, value.toList_dump]
  | .ifElse condition thenBranch elseBranch => by
    show ("If(" ++ condition.dump ++ ", " ++ thenBranch.dump ++ ", " ++ elseBranch.dump ++
      ")").toList = _
    simp [outline, condition.toList_dump, toList_dump thenBranch, toList_dump elseBranch]
  | .ret value => by
    show ("Return(" ++ value.dump ++ ")").toList = _
    simp [outline, value.toList_dump]
  | .block stmts => by
    show ("Compound([" ++ ", ".intercalate (dumpAll stmts) ++ "])").toList = _
    simp [outline, Outline.toList_intercalate ", " (toList_dumpAll stmts)]

theorem toList_dumpAll : (stmts : List Stmt) →
    (dumpAll stmts).map String.toList = (outlineOfAll stmts).map Outline.text
  | [] => rfl
  | stmt :: stmts => by
    simp only [dumpAll, outlineOfAll, List.map_cons, toList_dump stmt, toList_dumpAll stmts]

end

/-- The target of an assignment is an identifier or the mark of a dropped value. -/
theorem isUnmarked_target {target : String} {value : Expr}
    (hplain : (assign target value).Plain) : Outline.isUnmarked target = true := by
  have htarget := (plain_assign_iff.1 hplain).1
  by_cases hdiscard : (target == discard) = true
  · rw [beq_iff_eq.1 hdiscard]
    rfl
  · rw [if_neg hdiscard] at htarget
    exact Outline.isUnmarked_of_identifier htarget

mutual

theorem isProper_outline : (stmt : Stmt) → stmt.Plain → stmt.outline.isProper = true
  | .letVar name type, hplain => by
    have hcanonical := hplain.canonical
    simp only [isCanonical, Bool.and_eq_true] at hcanonical
    have hname := Outline.isUnmarked_of_identifier hcanonical.1
    have htype := Outline.isUnmarked_of_identifier hcanonical.2
    exact Outline.isProper_node rfl (by simp [hname, htype])
  | .assign target value, hplain => by
    have htarget := isUnmarked_target hplain
    have hvalue := value.isProper_outline (plain_assign_iff.1 hplain).2
    exact Outline.isProper_node rfl (by simp [htarget, hvalue])
  | .ifElse condition thenBranch elseBranch, hplain => by
    obtain ⟨hcondition, ⟨-, hthen⟩, -, helse⟩ := plain_ifElse_iff.1 hplain
    exact Outline.isProper_node rfl (by simp [condition.isProper_outline hcondition,
      isProper_outline thenBranch hthen, isProper_outline elseBranch helse])
  | .ret value, hplain => by
    have hvalue := value.isProper_outline (plain_ret_iff.1 hplain)
    exact Outline.isProper_node rfl (by simp [hvalue])
  | .block stmts, hplain => by
    have hstmts := areProper_outlineOfAll stmts (plain_block_iff.1 hplain)
    exact Outline.isProper_node rfl (by simp [hstmts])

theorem areProper_outlineOfAll : (stmts : List Stmt) → PlainAll stmts →
    Outline.areProper (outlineOfAll stmts) = true
  | [], _ => rfl
  | stmt :: stmts, hplain => by
    obtain ⟨hstmt, hstmts⟩ := plainAll_cons_iff.1 hplain
    simp [outlineOfAll, isProper_outline stmt hstmt, areProper_outlineOfAll stmts hstmts]

end

mutual

/-- Plain statements with the same outline are the same. -/
theorem outline_inj : (stmt : Stmt) → stmt.Plain → (other : Stmt) → other.Plain →
    stmt.outline = other.outline → stmt = other
  | .letVar name type, _, other, _, houtline => by
    cases other with
    | letVar name' type' =>
      obtain ⟨rfl, rfl⟩ : name = name' ∧ type = type' := by simpa [outline] using houtline
      rfl
    | _ => simp [outline] at houtline
  | .assign target value, hplain, other, hother, houtline => by
    cases other with
    | assign target' value' =>
      obtain ⟨rfl, hinner⟩ : target = target' ∧ value.outline = value'.outline := by
        simpa [outline] using houtline
      rw [value.outline_inj (plain_assign_iff.1 hplain).2 value' (plain_assign_iff.1 hother).2
        hinner]
    | _ => simp [outline] at houtline
  | .ifElse condition thenBranch elseBranch, hplain, other, hother, houtline => by
    cases other with
    | ifElse condition' thenBranch' elseBranch' =>
      obtain ⟨hcondition, ⟨-, hthen⟩, -, helse⟩ := plain_ifElse_iff.1 hplain
      obtain ⟨hcondition', ⟨-, hthen'⟩, -, helse'⟩ := plain_ifElse_iff.1 hother
      obtain ⟨houtline, hfirst, hsecond⟩ : condition.outline = condition'.outline ∧
          thenBranch.outline = thenBranch'.outline ∧ elseBranch.outline = elseBranch'.outline := by
        simpa [outline] using houtline
      rw [condition.outline_inj hcondition condition' hcondition' houtline,
        outline_inj thenBranch hthen thenBranch' hthen' hfirst,
        outline_inj elseBranch helse elseBranch' helse' hsecond]
    | _ => simp [outline] at houtline
  | .ret value, hplain, other, hother, houtline => by
    cases other with
    | ret value' =>
      have houtline : value.outline = value'.outline := by simpa [outline] using houtline
      rw [value.outline_inj (plain_ret_iff.1 hplain) value' (plain_ret_iff.1 hother) houtline]
    | _ => simp [outline] at houtline
  | .block stmts, hplain, other, hother, houtline => by
    cases other with
    | block stmts' =>
      have houtlines : outlineOfAll stmts = outlineOfAll stmts' := by
        simpa [outline] using houtline
      rw [outlineOfAll_inj stmts (plain_block_iff.1 hplain) stmts' (plain_block_iff.1 hother)
        houtlines]
    | _ => simp [outline] at houtline

theorem outlineOfAll_inj : (stmts : List Stmt) → PlainAll stmts → (others : List Stmt) →
    PlainAll others → outlineOfAll stmts = outlineOfAll others → stmts = others
  | [], _, [], _, _ => rfl
  | stmt :: stmts, hplain, other :: others, hothers, houtlines => by
    obtain ⟨hstmt, hstmts⟩ := plainAll_cons_iff.1 hplain
    obtain ⟨hother, hothers⟩ := plainAll_cons_iff.1 hothers
    obtain ⟨houtline, houtlines⟩ := List.cons.inj houtlines
    rw [outline_inj stmt hstmt other hother houtline,
      outlineOfAll_inj stmts hstmts others hothers houtlines]

end

theorem dump_inj {stmt other : Stmt} (hplain : stmt.Plain) (hother : other.Plain)
    (hdump : stmt.dump = other.dump) : stmt = other := by
  apply outline_inj stmt hplain other hother
  apply Outline.text_inj (stmt.isProper_outline hplain) (other.isProper_outline hother)
  rw [← stmt.toList_dump, ← other.toList_dump, hdump]

end Stmt

/-! ## Declarations and modules -/

/-- The outline that the dump of a parameter writes. -/
def Param.outline (param : Param) : Outline :=
  .node "Arg" [.word param.name, .word param.type]

/-- The outline that the dump of a prototype writes. -/
def Prototype.outline (proto : Prototype) : Outline :=
  .node "Prototype" [.word proto.name, .row (proto.params.map Param.outline),
    .word proto.returnType]

theorem Param.toList_dump (param : Param) : param.dump.toList = param.outline.text := by
  show ("Arg(" ++ param.name ++ ", " ++ param.type ++ ")").toList = _
  simp [outline]

theorem Prototype.toList_dump (proto : Prototype) : proto.dump.toList = proto.outline.text := by
  have hparams : (proto.params.map Param.dump).map String.toList =
      (proto.params.map Param.outline).map Outline.text := by
    simp [Param.toList_dump]
  show ("Prototype(" ++ proto.name ++ ", [" ++ ", ".intercalate (proto.params.map Param.dump) ++
    "], " ++ proto.returnType ++ ")").toList = _
  simp [outline, Outline.toList_intercalate ", " hparams]

theorem Param.isProper_outline {param : Param} (hcanonical : param.isCanonical = true) :
    param.outline.isProper = true := by
  simp only [isCanonical, Bool.and_eq_true] at hcanonical
  have hname := Outline.isUnmarked_of_identifier hcanonical.1
  have htype := Outline.isUnmarked_of_identifier hcanonical.2
  exact Outline.isProper_node rfl (by simp [hname, htype])

theorem Prototype.isProper_outline {proto : Prototype} (hcanonical : proto.isCanonical = true) :
    proto.outline.isProper = true := by
  simp only [isCanonical, Bool.and_eq_true, List.all_eq_true] at hcanonical
  have hname := Outline.isUnmarked_of_identifier hcanonical.1.1
  have htype := Outline.isUnmarked_of_identifier hcanonical.2
  have hparams : Outline.areProper (proto.params.map Param.outline) = true := by
    rw [Outline.areProper_iff, List.forall_mem_map]
    exact fun param hparam => Param.isProper_outline (hcanonical.1.2 param hparam)
  exact Outline.isProper_node rfl (by simp [hname, htype, hparams])

theorem Param.outline_injective : Function.Injective Param.outline := by
  rintro ⟨name, type⟩ ⟨name', type'⟩ houtline
  simpa [outline] using houtline

theorem Prototype.outline_injective : Function.Injective Prototype.outline := by
  rintro ⟨name, params, returnType⟩ ⟨name', params', returnType'⟩ houtline
  obtain ⟨rfl, hparams, rfl⟩ : name = name' ∧
      params.map Param.outline = params'.map Param.outline ∧ returnType = returnType' := by
    simpa [outline] using houtline
  rw [Param.outline_injective.list_map hparams]

namespace Decl

/-- The outline that the dump of a declaration writes. -/
def outline (decl : Decl) : Outline :=
  .node "Func" (decl.proto.outline :: (decl.body.map Stmt.outline).toList)

theorem toList_dump (decl : Decl) : decl.dump.toList = decl.outline.text := by
  obtain ⟨proto, _ | body⟩ := decl
  · show ("Func(" ++ proto.dump ++ ")").toList = _
    simp [outline, proto.toList_dump]
  · show ("Func(" ++ proto.dump ++ ", " ++ body.dump ++ ")").toList = _
    simp [outline, proto.toList_dump, body.toList_dump]

theorem isProper_outline {decl : Decl} (hplain : decl.Plain) : decl.outline.isProper = true := by
  have hproto := Prototype.isProper_outline hplain.proto
  obtain ⟨proto, _ | body⟩ := decl
  · exact Outline.isProper_node rfl (by simp [hproto])
  · have hbody := body.isProper_outline (hplain.body body rfl).2
    exact Outline.isProper_node rfl (by simp [hproto, hbody])

/-- Plain declarations with the same outline are the same. -/
theorem outline_inj {decl other : Decl} (hplain : decl.Plain) (hother : other.Plain)
    (houtline : decl.outline = other.outline) : decl = other := by
  obtain ⟨proto, body⟩ := decl
  obtain ⟨proto', body'⟩ := other
  obtain ⟨hproto, hbody⟩ : proto.outline = proto'.outline ∧
      (body.map Stmt.outline).toList = (body'.map Stmt.outline).toList := by
    simpa only [outline, Outline.node.injEq, List.cons.injEq, true_and] using houtline
  rw [Prototype.outline_injective hproto]
  cases body with
  | none =>
    cases body' with
    | none => rfl
    | some body' => simp at hbody
  | some body =>
    cases body' with
    | none => simp at hbody
    | some body' =>
      have houtline : body.outline = body'.outline := by simpa using hbody
      rw [body.outline_inj (hplain.body body rfl).2 body' (hother.body body' rfl).2 houtline]

theorem dump_inj {decl other : Decl} (hplain : decl.Plain) (hother : other.Plain)
    (hdump : decl.dump = other.dump) : decl = other := by
  apply outline_inj hplain hother
  apply Outline.text_inj (isProper_outline hplain) (isProper_outline hother)
  rw [← decl.toList_dump, ← other.toList_dump, hdump]

theorem areProper_map_outline {decls : List Decl} (hplain : ∀ decl ∈ decls, decl.Plain) :
    Outline.areProper (decls.map outline) = true := by
  rw [Outline.areProper_iff, List.forall_mem_map]
  exact fun decl hdecl => isProper_outline (hplain decl hdecl)

theorem map_outline_inj {decls others : List Decl} (hplain : ∀ decl ∈ decls, decl.Plain)
    (hothers : ∀ decl ∈ others, decl.Plain)
    (houtlines : decls.map outline = others.map outline) : decls = others := by
  induction decls generalizing others with
  | nil => exact (List.map_eq_nil_iff.1 houtlines.symm).symm
  | cons decl decls ih =>
    cases others with
    | nil => cases houtlines
    | cons other others =>
      rw [List.forall_mem_cons] at hplain hothers
      obtain ⟨houtline, houtlines⟩ := List.cons.inj houtlines
      rw [outline_inj hplain.1 hothers.1 houtline, ih hplain.2 hothers.2 houtlines]

end Decl

namespace Module

theorem toList_dump (module : Module) :
    module.dump.toList = Outline.rowText "\n" (module.decls.map Decl.outline) := by
  apply Outline.toList_intercalate "\n"
  simp [Decl.toList_dump]

/-- The dump of a module shows its declarations.  Its name is not in the dump. -/
theorem decls_eq_of_dump {module other : Module} (hplain : ∀ decl ∈ module.decls, decl.Plain)
    (hother : ∀ decl ∈ other.decls, decl.Plain) (hdump : module.dump = other.dump) :
    module.decls = other.decls := by
  apply Decl.map_outline_inj hplain hother
  apply Outline.lines_inj (Decl.areProper_map_outline hplain) (Decl.areProper_map_outline hother)
  rw [← module.toList_dump, ← other.toList_dump, hdump]

end Module

end Frontend
