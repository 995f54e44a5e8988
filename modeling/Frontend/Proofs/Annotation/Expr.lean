import Frontend.Proofs.Annotation.Overloads
import Frontend.Proofs.Canonical
import Frontend.Typing.Expr

/-!
# Annotated expressions

Annotating a plain expression succeeds exactly if the expression has a type, with
that type (`annotate_eq_ok_iff`).  The tree that comes out is the same but for its tags
(`untagged_annotate`), and after a success every node is tagged with its type
(`taggedType_annotate`).
-/

namespace Frontend

theorem bind_eq_ok_iff {ε α β : Type} {result : Except ε α} {next : α → Except ε β} {value : β} :
    result.bind next = .ok value ↔ ∃ first, result = .ok first ∧ next first = .ok value := by
  cases result <;> simp [Except.bind]

theorem map_eq_ok_iff {ε α β : Type} {result : Except ε α} {write : α → β} {value : β} :
    result.map write = .ok value ↔ ∃ first, result = .ok first ∧ write first = value := by
  cases result <;> simp [Except.map]

/-- The types of the variables in scope. -/
def Annotator.varTypes (annotator : Annotator) : Variables :=
  fun name => annotator.scope.lookup name

theorem Annotator.variableType_eq_ok_iff {annotator : Annotator} {name : String}
    {type : TypeName} :
    annotator.variableType name = .ok type ↔ annotator.varTypes name = some type := by
  unfold variableType varTypes
  cases annotator.scope.lookup name <;> simp

namespace Expr

/-! ## One node -/

section Node

variable {annotator : Annotator}

theorem annotate_unary_ok_iff {operator : String} {operand : Expr} {type : TypeName} :
    ((unary operator operand none).annotate annotator).result = .ok type ↔
      ∃ operandType, (operand.annotate annotator).result = .ok operandType ∧
        annotator.resolve operator [operandType] = .ok type := by
  rw [annotate]
  exact bind_eq_ok_iff

theorem annotate_binary_ok_iff {operator : String} {lhs rhs : Expr} {type : TypeName} :
    ((binary operator lhs rhs none).annotate annotator).result = .ok type ↔
      ∃ lhsType rhsType, (lhs.annotate annotator).result = .ok lhsType ∧
        (rhs.annotate annotator).result = .ok rhsType ∧
        annotator.resolve operator [lhsType, rhsType] = .ok type := by
  rw [annotate]
  cases hlhs : (lhs.annotate annotator).result with
  | error error => simp
  | ok lhsType => simp [bind_eq_ok_iff]

theorem annotate_call_ok_iff {callee : String} {args : List Expr} {type : TypeName} :
    ((call callee args none).annotate annotator).result = .ok type ↔
      ∃ argTypes, (annotateAll annotator args).result = .ok argTypes ∧
        annotator.resolve callee argTypes = .ok type := by
  rw [annotate]
  exact bind_eq_ok_iff

theorem annotateAll_cons_ok_iff {expr : Expr} {exprs : List Expr} {types : List TypeName} :
    (annotateAll annotator (expr :: exprs)).result = .ok types ↔
      ∃ type others, types = type :: others ∧ (expr.annotate annotator).result = .ok type ∧
        (annotateAll annotator exprs).result = .ok others := by
  rw [annotateAll]
  cases hexpr : (expr.annotate annotator).result with
  | error error => simp
  | ok type =>
    simp only [map_eq_ok_iff, Except.ok.injEq]
    constructor
    · rintro ⟨others, hexprs, rfl⟩
      exact ⟨type, others, rfl, rfl, hexprs⟩
    · rintro ⟨type, others, rfl, rfl, hexprs⟩
      exact ⟨others, hexprs, rfl⟩

theorem annotate_unary_node {operator : String} {operand : Expr} {type : TypeName}
    (hresult : ((unary operator operand none).annotate annotator).result = .ok type) :
    ((unary operator operand none).annotate annotator).node =
      unary operator (operand.annotate annotator).node (some type) := by
  rw [annotate] at hresult ⊢
  dsimp only at hresult ⊢
  rw [hresult]
  rfl

theorem annotate_binary_node {operator : String} {lhs rhs : Expr} {type : TypeName}
    (hresult : ((binary operator lhs rhs none).annotate annotator).result = .ok type) :
    ((binary operator lhs rhs none).annotate annotator).node =
      binary operator (lhs.annotate annotator).node (rhs.annotate annotator).node (some type) := by
  rw [annotate] at hresult ⊢
  cases hlhs : (lhs.annotate annotator).result with
  | error error => simp [hlhs] at hresult
  | ok lhsType =>
    simp only [hlhs] at hresult ⊢
    rw [hresult]
    rfl

theorem annotate_call_node {callee : String} {args : List Expr} {type : TypeName}
    (hresult : ((call callee args none).annotate annotator).result = .ok type) :
    ((call callee args none).annotate annotator).node =
      call callee (annotateAll annotator args).node (some type) := by
  rw [annotate] at hresult ⊢
  dsimp only at hresult ⊢
  rw [hresult]
  rfl

/-- Where an application fails, what was done to the operand stays and the node gets no tag. -/
theorem annotate_unary_node_of_error {operator : String} {operand : Expr} {error : Error}
    (hresult : ((unary operator operand none).annotate annotator).result = .error error) :
    ((unary operator operand none).annotate annotator).node =
      unary operator (operand.annotate annotator).node none := by
  rw [annotate] at hresult ⊢
  dsimp only at hresult ⊢
  rw [hresult]
  rfl

theorem annotate_call_node_of_error {callee : String} {args : List Expr} {error : Error}
    (hresult : ((call callee args none).annotate annotator).result = .error error) :
    ((call callee args none).annotate annotator).node =
      call callee (annotateAll annotator args).node none := by
  rw [annotate] at hresult ⊢
  dsimp only at hresult ⊢
  rw [hresult]
  rfl

theorem annotateAll_cons_node {expr : Expr} {exprs : List Expr} {types : List TypeName}
    (hresult : (annotateAll annotator (expr :: exprs)).result = .ok types) :
    (annotateAll annotator (expr :: exprs)).node =
      (expr.annotate annotator).node :: (annotateAll annotator exprs).node := by
  rw [annotateAll] at hresult ⊢
  cases hexpr : (expr.annotate annotator).result with
  | error error => simp [hexpr] at hresult
  | ok type => rfl

end Node

/-! ## Trees -/

section Tree

variable {annotator : Annotator} {protos : List Prototype}

mutual

/-- The induction is on the tree.  At an operator and at a call, the operands have their types by
the induction hypothesis, and the overloads answer as the prototypes say. -/
theorem annotate_eq_ok_iff (hrep : Represents annotator.overloads protos) : (expr : Expr) →
    expr.Plain → {type : TypeName} →
    ((expr.annotate annotator).result = .ok type ↔
      HasType protos annotator.varTypes expr type)
  | .int value tag, hplain, type => by
    obtain rfl : tag = none := hplain.tag
    constructor
    · rintro ⟨⟩
      exact .int
    · rintro ⟨⟩
      rfl
  | .float value tag, hplain, type => by
    obtain rfl : tag = none := hplain.tag
    constructor
    · rintro ⟨⟩
      exact .float
    · rintro ⟨⟩
      rfl
  | .bool value tag, hplain, type => by
    obtain rfl : tag = none := hplain.tag
    constructor
    · rintro ⟨⟩
      exact .bool
    · rintro ⟨⟩
      rfl
  | .var name tag, hplain, type => by
    obtain rfl : tag = none := hplain.tag
    rw [annotate]
    constructor
    · intro hresult
      split at hresult
      · rename_i hvar
        cases hresult
        exact .var (Annotator.variableType_eq_ok_iff.1 hvar)
      · cases hresult
    · intro htyped
      cases htyped with | var hvar =>
      rw [Annotator.variableType_eq_ok_iff.2 hvar]
      rfl
  | .unary operator operand tag, hplain, type => by
    obtain ⟨rfl, rfl, hoperand⟩ := plain_unary_iff.1 hplain
    have hoperator : "-" ∈ Operator.all := by decide
    rw [annotate_unary_ok_iff]
    constructor
    · rintro ⟨operandType, hresult, hresolve⟩
      exact .unary ((annotate_eq_ok_iff hrep operand hoperand).1 hresult)
        ((hrep.resolve_operator_iff hoperator).1 hresolve)
    · intro htyped
      cases htyped with | unary hoperandType htype =>
      exact ⟨_, (annotate_eq_ok_iff hrep operand hoperand).2 hoperandType,
        (hrep.resolve_operator_iff hoperator).2 htype⟩
  | .binary operator lhs rhs tag, hplain, type => by
    obtain ⟨rfl, hoperator, hlhs, hrhs⟩ := plain_binary_iff.1 hplain
    rw [annotate_binary_ok_iff]
    constructor
    · rintro ⟨lhsType, rhsType, hlhsResult, hrhsResult, hresolve⟩
      exact .binary ((annotate_eq_ok_iff hrep lhs hlhs).1 hlhsResult)
        ((annotate_eq_ok_iff hrep rhs hrhs).1 hrhsResult)
        ((hrep.resolve_operator_iff hoperator).1 hresolve)
    · intro htyped
      cases htyped with | binary hlhsType hrhsType htype =>
      exact ⟨_, _, (annotate_eq_ok_iff hrep lhs hlhs).2 hlhsType,
        (annotate_eq_ok_iff hrep rhs hrhs).2 hrhsType,
        (hrep.resolve_operator_iff hoperator).2 htype⟩
  | .call callee args tag, hplain, type => by
    obtain ⟨rfl, hcallee, hargs⟩ := plain_call_iff.1 hplain
    rw [annotate_call_ok_iff]
    constructor
    · rintro ⟨argTypes, hresult, hresolve⟩
      obtain ⟨proto, hproto, hname, rfl, hreturn⟩ := (hrep.resolve_call_iff hcallee).1 hresolve
      exact .call ((annotateAll_eq_ok_iff hrep args hargs).1 hresult) hproto hname hreturn
    · intro htyped
      cases htyped with | call hargTypes hproto hname hreturn =>
      exact ⟨_, (annotateAll_eq_ok_iff hrep args hargs).2 hargTypes,
        (hrep.resolve_call_iff hcallee).2 ⟨_, hproto, hname, rfl, hreturn⟩⟩

theorem annotateAll_eq_ok_iff (hrep : Represents annotator.overloads protos) :
    (exprs : List Expr) → PlainAll exprs → {types : List TypeName} →
    ((annotateAll annotator exprs).result = .ok types ↔
      HaveTypes protos annotator.varTypes exprs types)
  | [], _, types => by
    constructor
    · rintro ⟨⟩
      exact .nil
    · rintro ⟨⟩
      rfl
  | expr :: exprs, hplain, types => by
    obtain ⟨hexprPlain, hexprsPlain⟩ := plainAll_cons_iff.1 hplain
    rw [annotateAll_cons_ok_iff]
    constructor
    · rintro ⟨type, others, rfl, hexpr, hexprs⟩
      exact .cons ((annotate_eq_ok_iff hrep expr hexprPlain).1 hexpr)
        ((annotateAll_eq_ok_iff hrep exprs hexprsPlain).1 hexprs)
    · intro htyped
      cases htyped with | cons hexpr hexprs =>
      exact ⟨_, _, rfl, (annotate_eq_ok_iff hrep expr hexprPlain).2 hexpr,
        (annotateAll_eq_ok_iff hrep exprs hexprsPlain).2 hexprs⟩

end

mutual

/-- Annotation changes nothing but tags, whether it succeeds or not. -/
theorem untagged_annotate : (expr : Expr) →
    (expr.annotate annotator).node.untagged = expr.untagged
  | .int .. | .float .. | .bool .. => rfl
  | .var name tag => by
    rw [annotate]
    split <;> rfl
  | .unary _ _ (some _) | .binary _ _ _ (some _) | .call _ _ (some _) => rfl
  | .unary operator operand none => by
    simp only [annotate, untagged, untagged_annotate operand]
  | .binary operator lhs rhs none => by
    rw [annotate]
    cases (lhs.annotate annotator).result with
    | error error => simp only [untagged, untagged_annotate lhs]
    | ok type => simp only [untagged, untagged_annotate lhs, untagged_annotate rhs]
  | .call callee args none => by
    simp only [annotate, untagged, untaggedAll_annotateAll args]

theorem untaggedAll_annotateAll : (exprs : List Expr) →
    untaggedAll (annotateAll annotator exprs).node = untaggedAll exprs
  | [] => rfl
  | expr :: exprs => by
    rw [annotateAll]
    cases (expr.annotate annotator).result with
    | error error => simp only [untaggedAll, untagged_annotate expr]
    | ok type => simp only [untaggedAll, untagged_annotate expr, untaggedAll_annotateAll exprs]

end

/-! ## Tags -/

mutual

theorem hasType_unique (hrep : Represents annotator.overloads protos) {vars : Variables}
    {expr : Expr} {type type' : TypeName} :
    HasType protos vars expr type → HasType protos vars expr type' → type = type'
  | .int, .int | .float, .float | .bool, .bool => rfl
  | .var hvar, .var hvar' => Option.some_inj.1 (hvar.symm.trans hvar')
  | .unary hoperand htype, .unary hoperand' htype' => by
    obtain rfl := hasType_unique hrep hoperand hoperand'
    exact Overloads.operatorType_unique htype htype'
  | .binary hlhs hrhs htype, .binary hlhs' hrhs' htype' => by
    obtain rfl := hasType_unique hrep hlhs hlhs'
    obtain rfl := hasType_unique hrep hrhs hrhs'
    exact Overloads.operatorType_unique htype htype'
  | .call hargs hproto hname hreturn, .call hargs' hproto' hname' hreturn' => by
    rw [← hreturn, ← hreturn']
    exact hrep.consistent hproto hproto' (hname.trans hname'.symm)
      (haveTypes_unique hrep hargs hargs')

theorem haveTypes_unique (hrep : Represents annotator.overloads protos) {vars : Variables}
    {exprs : List Expr} {types types' : List TypeName} :
    HaveTypes protos vars exprs types → HaveTypes protos vars exprs types' → types = types'
  | .nil, .nil => rfl
  | .cons hexpr hexprs, .cons hexpr' hexprs' => by
    rw [hasType_unique hrep hexpr hexpr', haveTypes_unique hrep hexprs hexprs']

end

/-- A node is tagged with its type, if its type is known and it is tagged with it. -/
theorem taggedType_of_nodes (hrep : Represents annotator.overloads protos) {vars : Variables}
    {expr : Expr} {type : TypeName} {inner : List Expr} (hnodes : expr.nodes = expr :: inner)
    (htag : expr.tag = some type) (htype : HasType protos vars expr type)
    (hinner : ∀ node ∈ inner, ∃ nodeType, TaggedNode protos vars node nodeType) :
    TaggedType protos vars expr type := by
  have hroot : TaggedNode protos vars expr type :=
    ⟨htag, htype, fun _ hother => hasType_unique hrep hother htype⟩
  refine ⟨hroot, fun node hmem => ?_⟩
  rw [hnodes, List.mem_cons] at hmem
  rcases hmem with rfl | hmem
  · exact ⟨type, hroot⟩
  · exact hinner node hmem

mutual

theorem taggedType_annotate (hrep : Represents annotator.overloads protos) : (expr : Expr) →
    expr.Plain → {type : TypeName} →
    (expr.annotate annotator).result = .ok type →
    TaggedType protos annotator.varTypes (expr.annotate annotator).node type
  | .int value tag, hplain, type, hresult => by
    obtain rfl : tag = none := hplain.tag
    cases hresult
    exact taggedType_of_nodes hrep rfl rfl .int (by simp)
  | .float value tag, hplain, type, hresult => by
    obtain rfl : tag = none := hplain.tag
    cases hresult
    exact taggedType_of_nodes hrep rfl rfl .float (by simp)
  | .bool value tag, hplain, type, hresult => by
    obtain rfl : tag = none := hplain.tag
    cases hresult
    exact taggedType_of_nodes hrep rfl rfl .bool (by simp)
  | .var name tag, hplain, type, hresult => by
    obtain rfl : tag = none := hplain.tag
    rw [annotate] at hresult ⊢
    split at hresult
    · rename_i hvar
      cases hresult
      exact taggedType_of_nodes hrep rfl rfl (.var (Annotator.variableType_eq_ok_iff.1 hvar))
        (by simp)
    · cases hresult
  | .unary operator operand tag, hplain, type, hresult => by
    obtain ⟨rfl, rfl, hoperand⟩ := plain_unary_iff.1 hplain
    obtain ⟨operandType, hoperandResult, hresolve⟩ := annotate_unary_ok_iff.1 hresult
    have htagged := taggedType_annotate hrep operand hoperand hoperandResult
    rw [annotate_unary_node hresult]
    refine taggedType_of_nodes hrep rfl rfl (.unary htagged.root.hasType ?_) htagged.nodes
    exact (hrep.resolve_operator_iff (by decide)).1 hresolve
  | .binary operator lhs rhs tag, hplain, type, hresult => by
    obtain ⟨rfl, hoperator, hlhs, hrhs⟩ := plain_binary_iff.1 hplain
    obtain ⟨lhsType, rhsType, hlhsResult, hrhsResult, hresolve⟩ :=
      annotate_binary_ok_iff.1 hresult
    have hlhsTagged := taggedType_annotate hrep lhs hlhs hlhsResult
    have hrhsTagged := taggedType_annotate hrep rhs hrhs hrhsResult
    rw [annotate_binary_node hresult]
    refine taggedType_of_nodes hrep rfl rfl
      (.binary hlhsTagged.root.hasType hrhsTagged.root.hasType ?_) fun node hmem => ?_
    · exact (hrep.resolve_operator_iff hoperator).1 hresolve
    · rcases List.mem_append.1 hmem with hmem | hmem
      · exact hlhsTagged.nodes node hmem
      · exact hrhsTagged.nodes node hmem
  | .call callee args tag, hplain, type, hresult => by
    obtain ⟨rfl, hcallee, hargs⟩ := plain_call_iff.1 hplain
    obtain ⟨argTypes, hargsResult, hresolve⟩ := annotate_call_ok_iff.1 hresult
    obtain ⟨proto, hproto, hname, rfl, hreturn⟩ :=
      (hrep.resolve_call_iff hcallee).1 hresolve
    obtain ⟨hargTypes, hnodes⟩ := taggedTypes_annotateAll hrep args hargs hargsResult
    rw [annotate_call_node hresult]
    exact taggedType_of_nodes hrep rfl rfl (.call hargTypes hproto hname hreturn) hnodes

theorem taggedTypes_annotateAll (hrep : Represents annotator.overloads protos) :
    (exprs : List Expr) → PlainAll exprs →
    {types : List TypeName} → (annotateAll annotator exprs).result = .ok types →
    HaveTypes protos annotator.varTypes (annotateAll annotator exprs).node types ∧
      ∀ node ∈ nodesOfAll (annotateAll annotator exprs).node,
        ∃ nodeType, TaggedNode protos annotator.varTypes node nodeType
  | [], _, types, hresult => by
    cases hresult
    exact ⟨.nil, nofun⟩
  | expr :: exprs, hplain, types, hresult => by
    obtain ⟨hexprPlain, hexprsPlain⟩ := plainAll_cons_iff.1 hplain
    obtain ⟨type, others, rfl, hexprResult, hexprsResult⟩ := annotateAll_cons_ok_iff.1 hresult
    have htagged := taggedType_annotate hrep expr hexprPlain hexprResult
    obtain ⟨hexprs, hnodes⟩ :=
      taggedTypes_annotateAll hrep exprs hexprsPlain hexprsResult
    rw [annotateAll_cons_node hresult]
    refine ⟨.cons htagged.root.hasType hexprs, fun node hmem => ?_⟩
    rcases List.mem_append.1 hmem with hmem | hmem
    · exact htagged.nodes node hmem
    · exact hnodes node hmem

end

end Tree

end Expr

end Frontend
