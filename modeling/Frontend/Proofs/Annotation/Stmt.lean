import Frontend.Proofs.Annotation.Expr
import Frontend.Typing.Stmt

/-!
# Annotated statements

Annotating a plain statement succeeds exactly if the statement checks, and the scope
that it leaves gives the variables that the judgement gives (`checks_of_annotate`,
`annotate_of_checks`).  After a success the annotated statement checks with all its
expressions tagged.
-/

namespace Frontend

namespace Annotator

theorem varTypes_declare (annotator : Annotator) (name : String) (type : TypeName) :
    (annotator.declare name type).varTypes = annotator.varTypes.set name type := by
  funext other
  unfold varTypes declare Variables.set
  rw [List.lookup_cons]
  by_cases hname : other = name
  · rw [if_pos hname, beq_iff_eq.2 hname]
  · rw [if_neg hname, beq_false_of_ne hname]

theorem checkAssign_eq_ok_iff {annotator : Annotator} {target : String} {received : TypeName} :
    annotator.checkAssign target received = .ok () ↔
      target = Stmt.discard ∨ annotator.varTypes target = some received := by
  unfold checkAssign
  by_cases hdiscard : target = Stmt.discard
  · simp [hdiscard, pure, Except.pure]
  · rw [if_neg (mt beq_iff_eq.1 hdiscard)]
    cases hvar : annotator.variableType target with
    | error error =>
      have hnone : ¬annotator.varTypes target = some received := fun hsome => by
        rw [variableType_eq_ok_iff.2 hsome] at hvar
        cases hvar
      simp [hdiscard, hnone, bind, Except.bind]
    | ok expected =>
      rw [variableType_eq_ok_iff.1 hvar]
      by_cases hsame : received = expected
      · simp [hsame, bind, Except.bind, pure, Except.pure]
      · have hother : ¬expected = received := fun heq => hsame heq.symm
        simp [hdiscard, hsame, hother, bind, Except.bind, throw, throwThe, MonadExceptOf.throw]

theorem checkReturn_eq_ok_iff {annotator : Annotator} {function : String}
    {expected received : TypeName} (hfunction : annotator.function = some (function, expected)) :
    annotator.checkReturn received = .ok () ↔ received = expected := by
  unfold checkReturn
  rw [hfunction]
  by_cases hsame : expected = received
  · simp [hsame]
  · have hother : ¬received = expected := fun heq => hsame heq.symm
    simp [hsame, hother]

end Annotator

namespace Stmt

theorem checkCondition_eq_ok_iff {received : TypeName} :
    checkCondition received = .ok () ↔ received = boolType := by
  unfold checkCondition
  split <;> simp_all

theorem checkCondition_eq_ok_iff_bind {result : Except Error TypeName} :
    result.bind checkCondition = .ok () ↔ result = .ok boolType := by
  simp only [bind_eq_ok_iff, checkCondition_eq_ok_iff]
  exact exists_eq_right

/-! ## One statement -/

section Node

variable {annotator : Annotator}

theorem annotate_assign_ok_iff {target : String} {value : Expr} :
    ((assign target value).annotate annotator).result = .ok () ↔
      ∃ type, (value.annotate annotator).result = .ok type ∧
        (target = discard ∨ annotator.varTypes target = some type) := by
  simp only [annotate, bind_eq_ok_iff, Annotator.checkAssign_eq_ok_iff]

theorem annotate_ret_ok_iff {value : Expr} {function : String} {returnType : TypeName}
    (hfunction : annotator.function = some (function, returnType)) :
    ((ret value).annotate annotator).result = .ok () ↔
      (value.annotate annotator).result = .ok returnType := by
  simp only [annotate, bind_eq_ok_iff, Annotator.checkReturn_eq_ok_iff hfunction]
  exact exists_eq_right

/-- Both branches are annotated after the condition, the second with what the first left. -/
theorem annotate_ifElse_ok_iff {condition : Expr} {thenBranch elseBranch : Stmt} :
    ((ifElse condition thenBranch elseBranch).annotate annotator).result = .ok () ↔
      (condition.annotate annotator).result = .ok boolType ∧
      (thenBranch.annotate annotator).result = .ok () ∧
      (elseBranch.annotate (thenBranch.annotate annotator).annotator).result = .ok () := by
  rw [annotate, ← checkCondition_eq_ok_iff_bind]
  cases hcondition : (condition.annotate annotator).result.bind checkCondition with
  | error error => simp
  | ok checked =>
    cases hthen : (thenBranch.annotate annotator).result with
    | error error => simp [hthen]
    | ok done => simp [hthen]

/-- What a choice leaves if both its branches succeed. -/
theorem annotate_ifElse_ok {condition : Expr} {thenBranch : Stmt} (elseBranch : Stmt)
    (hcondition : (condition.annotate annotator).result = .ok boolType)
    (hthen : (thenBranch.annotate annotator).result = .ok ()) :
    let done := thenBranch.annotate annotator
    let pass := (ifElse condition thenBranch elseBranch).annotate annotator
    pass.node = ifElse (condition.annotate annotator).node done.node
        (elseBranch.annotate done.annotator).node ∧
      pass.annotator = (elseBranch.annotate done.annotator).annotator := by
  dsimp only
  rw [annotate, checkCondition_eq_ok_iff_bind.2 hcondition]
  simp only [hthen, and_self]

theorem annotateAll_cons_ok_iff {stmt : Stmt} {stmts : List Stmt} :
    (annotateAll annotator (stmt :: stmts)).result = .ok () ↔
      (stmt.annotate annotator).result = .ok () ∧
      (annotateAll (stmt.annotate annotator).annotator stmts).result = .ok () := by
  rw [annotateAll, Pass.cons]
  cases hstmt : (stmt.annotate annotator).result with
  | error error => simp
  | ok done => simp

theorem annotateAll_cons_ok {stmt : Stmt} (stmts : List Stmt)
    (hstmt : (stmt.annotate annotator).result = .ok ()) :
    let done := stmt.annotate annotator
    let pass := annotateAll annotator (stmt :: stmts)
    pass.node = done.node :: (annotateAll done.annotator stmts).node ∧
      pass.annotator = (annotateAll done.annotator stmts).annotator := by
  dsimp only
  rw [annotateAll, Pass.cons, hstmt]
  exact ⟨rfl, rfl⟩

end Node

/-! ## Trees -/

mutual

/-- Statements change the scope and nothing else of what is known. -/
theorem annotate_keeps : (stmt : Stmt) → (annotator : Annotator) →
    (stmt.annotate annotator).annotator.overloads = annotator.overloads ∧
      (stmt.annotate annotator).annotator.function = annotator.function
  | .letVar .., _ | .assign .., _ | .ret .., _ => ⟨rfl, rfl⟩
  | .ifElse condition thenBranch elseBranch, annotator => by
    have hthen := annotate_keeps thenBranch annotator
    have helse := annotate_keeps elseBranch (thenBranch.annotate annotator).annotator
    rw [annotate]
    dsimp only
    split
    · exact ⟨rfl, rfl⟩
    · split
      · exact hthen
      · exact ⟨helse.1.trans hthen.1, helse.2.trans hthen.2⟩
  | .block stmts, annotator => annotateAll_keeps stmts annotator

theorem annotateAll_keeps : (stmts : List Stmt) → (annotator : Annotator) →
    (annotateAll annotator stmts).annotator.overloads = annotator.overloads ∧
      (annotateAll annotator stmts).annotator.function = annotator.function
  | [], _ => ⟨rfl, rfl⟩
  | stmt :: stmts, annotator => by
    have hstmt := annotate_keeps stmt annotator
    have hstmts := annotateAll_keeps stmts (stmt.annotate annotator).annotator
    rw [annotateAll, Pass.cons]
    split
    · exact hstmt
    · exact ⟨hstmts.1.trans hstmt.1, hstmts.2.trans hstmt.2⟩

end

mutual

/-- Annotation changes nothing but tags, whether it succeeds or not. -/
theorem untagged_annotate : (stmt : Stmt) → (annotator : Annotator) →
    (stmt.annotate annotator).node.untagged = stmt.untagged
  | .letVar .., _ => rfl
  | .assign _ value, _ | .ret value, _ => by
    simp only [annotate, untagged, value.untagged_annotate]
  | .ifElse condition thenBranch elseBranch, annotator => by
    rw [annotate]
    dsimp only
    split
    · simp only [untagged, condition.untagged_annotate]
    · split
      · simp only [untagged, condition.untagged_annotate, untagged_annotate thenBranch]
      · simp only [untagged, condition.untagged_annotate, untagged_annotate thenBranch,
          untagged_annotate elseBranch]
  | .block stmts, annotator => by
    simp only [annotate, untagged, untaggedAll_annotateAll stmts]

theorem untaggedAll_annotateAll : (stmts : List Stmt) → (annotator : Annotator) →
    untaggedAll (annotateAll annotator stmts).node = untaggedAll stmts
  | [], _ => rfl
  | stmt :: stmts, annotator => by
    rw [annotateAll, Pass.cons]
    split
    · simp only [untaggedAll, untagged_annotate stmt]
    · simp only [untaggedAll, untagged_annotate stmt, untaggedAll_annotateAll stmts]

end

/-! ## Checked statements -/

/-- The annotator knows the prototypes, and that it is in a function of the return type. -/
structure Knows (annotator : Annotator) (protos : List Prototype) (returnType : TypeName) :
    Prop where
  represents : Represents annotator.overloads protos
  function : ∃ name, annotator.function = some (name, returnType)

theorem Knows.annotate {annotator : Annotator} {protos : List Prototype} {returnType : TypeName}
    (hknows : Knows annotator protos returnType) (stmt : Stmt) :
    Knows (stmt.annotate annotator).annotator protos returnType := by
  obtain ⟨hoverloads, hfunction⟩ := annotate_keeps stmt annotator
  exact ⟨hoverloads ▸ hknows.represents, hfunction ▸ hknows.function⟩

section Checked

variable {protos : List Prototype} {returnType : TypeName}

mutual

/-- What is annotated checks, and so does the annotated statement with all its tags. -/
theorem checks_of_annotate : (stmt : Stmt) → stmt.Plain → {annotator : Annotator} →
    Knows annotator protos returnType → (stmt.annotate annotator).result = .ok () →
    Checks (HasType protos) returnType annotator.varTypes stmt
        (stmt.annotate annotator).annotator.varTypes ∧
      Checks (TaggedType protos) returnType annotator.varTypes (stmt.annotate annotator).node
        (stmt.annotate annotator).annotator.varTypes
  | .letVar name type, _, annotator, _, _ => by
    rw [Stmt.annotate, Annotator.varTypes_declare]
    exact ⟨.letVar, .letVar⟩
  | .assign target value, hplain, annotator, hknows, hresult => by
    obtain ⟨-, hplain⟩ := plain_assign_iff.1 hplain
    obtain ⟨type, hvalue, htarget⟩ := annotate_assign_ok_iff.1 hresult
    have htype := (value.annotate_eq_ok_iff hknows.represents hplain).1 hvalue
    have htagged := value.taggedType_annotate hknows.represents hplain hvalue
    by_cases hdiscard : target = discard
    · subst hdiscard
      exact ⟨.discard htype, .discard htagged⟩
    · have hvar := htarget.resolve_left hdiscard
      exact ⟨.assign hdiscard htype hvar, .assign hdiscard htagged hvar⟩
  | .ifElse condition thenBranch elseBranch, hplain, annotator, hknows, hresult => by
    obtain ⟨hcondition, ⟨-, hthen⟩, -, helse⟩ := plain_ifElse_iff.1 hplain
    obtain ⟨hconditionResult, hthenResult, helseResult⟩ := annotate_ifElse_ok_iff.1 hresult
    obtain ⟨hnode, hannotator⟩ := annotate_ifElse_ok elseBranch hconditionResult hthenResult
    have htype := (condition.annotate_eq_ok_iff hknows.represents hcondition).1 hconditionResult
    have htagged := condition.taggedType_annotate hknows.represents hcondition hconditionResult
    have hfirst := checks_of_annotate thenBranch hthen hknows hthenResult
    have hsecond := checks_of_annotate elseBranch helse (hknows.annotate thenBranch) helseResult
    rw [hnode, hannotator]
    exact ⟨.ifElse htype hfirst.1 hsecond.1, .ifElse htagged hfirst.2 hsecond.2⟩
  | .ret value, hplain, annotator, hknows, hresult => by
    have hplain := plain_ret_iff.1 hplain
    obtain ⟨name, hfunction⟩ := hknows.function
    have hvalue := (annotate_ret_ok_iff hfunction).1 hresult
    exact ⟨.ret ((value.annotate_eq_ok_iff hknows.represents hplain).1 hvalue),
      .ret (value.taggedType_annotate hknows.represents hplain hvalue)⟩
  | .block stmts, hplain, annotator, hknows, hresult => by
    have hstmts := checksAll_of_annotateAll stmts (plain_block_iff.1 hplain) hknows hresult
    exact ⟨.block hstmts.1, .block hstmts.2⟩

theorem checksAll_of_annotateAll : (stmts : List Stmt) → PlainAll stmts →
    {annotator : Annotator} → Knows annotator protos returnType →
    (annotateAll annotator stmts).result = .ok () →
    ChecksAll (HasType protos) returnType annotator.varTypes stmts
        (annotateAll annotator stmts).annotator.varTypes ∧
      ChecksAll (TaggedType protos) returnType annotator.varTypes (annotateAll annotator stmts).node
        (annotateAll annotator stmts).annotator.varTypes
  | [], _, _, _, _ => ⟨.nil, .nil⟩
  | stmt :: stmts, hplain, annotator, hknows, hresult => by
    obtain ⟨hstmtPlain, hstmtsPlain⟩ := plainAll_cons_iff.1 hplain
    obtain ⟨hstmtResult, hstmtsResult⟩ := annotateAll_cons_ok_iff.1 hresult
    obtain ⟨hnode, hannotator⟩ := annotateAll_cons_ok stmts hstmtResult
    have hstmt := checks_of_annotate stmt hstmtPlain hknows hstmtResult
    have hstmts := checksAll_of_annotateAll stmts hstmtsPlain (hknows.annotate stmt)
      hstmtsResult
    rw [hnode, hannotator]
    exact ⟨.cons hstmt.1 hstmts.1, .cons hstmt.2 hstmts.2⟩

end

mutual

/-- What checks is annotated, and leaves the scope that the judgement says. -/
theorem annotate_of_checks : (stmt : Stmt) → stmt.Plain → {annotator : Annotator} →
    Knows annotator protos returnType → {vars : Variables} →
    Checks (HasType protos) returnType annotator.varTypes stmt vars →
    (stmt.annotate annotator).result = .ok () ∧
      (stmt.annotate annotator).annotator.varTypes = vars
  | .letVar name type, _, annotator, _, vars, hchecks => by
    cases hchecks with | letVar =>
    exact ⟨rfl, annotator.varTypes_declare name type⟩
  | .assign target value, hplain, annotator, hknows, vars, hchecks => by
    obtain ⟨-, hplain⟩ := plain_assign_iff.1 hplain
    have hiff (type : TypeName) : (value.annotate annotator).result = .ok type ↔
        HasType protos annotator.varTypes value type :=
      value.annotate_eq_ok_iff hknows.represents hplain
    cases hchecks with
    | assign htarget hvalue hvar =>
      exact ⟨annotate_assign_ok_iff.2 ⟨_, (hiff _).2 hvalue, .inr hvar⟩, rfl⟩
    | discard hvalue =>
      exact ⟨annotate_assign_ok_iff.2 ⟨_, (hiff _).2 hvalue, .inl rfl⟩, rfl⟩
  | .ifElse condition thenBranch elseBranch, hplain, annotator, hknows, vars,
      hchecks => by
    obtain ⟨hconditionPlain, ⟨-, hthenPlain⟩, -, helsePlain⟩ := plain_ifElse_iff.1 hplain
    cases hchecks with | ifElse hcondition hthen helse =>
    have hconditionResult :=
      (condition.annotate_eq_ok_iff hknows.represents hconditionPlain).2 hcondition
    obtain ⟨hthenResult, rfl⟩ := annotate_of_checks thenBranch hthenPlain hknows hthen
    obtain ⟨helseResult, rfl⟩ :=
      annotate_of_checks elseBranch helsePlain (hknows.annotate thenBranch) helse
    refine ⟨annotate_ifElse_ok_iff.2 ⟨hconditionResult, hthenResult, helseResult⟩, ?_⟩
    rw [(annotate_ifElse_ok elseBranch hconditionResult hthenResult).2]
  | .ret value, hplain, annotator, hknows, vars, hchecks => by
    have hplain := plain_ret_iff.1 hplain
    obtain ⟨name, hfunction⟩ := hknows.function
    cases hchecks with | ret hvalue =>
    refine ⟨(annotate_ret_ok_iff hfunction).2 ?_, rfl⟩
    exact (value.annotate_eq_ok_iff hknows.represents hplain).2 hvalue
  | .block stmts, hplain, annotator, hknows, vars, hchecks => by
    cases hchecks with | block hstmts =>
    exact annotateAll_of_checksAll stmts (plain_block_iff.1 hplain) hknows hstmts

theorem annotateAll_of_checksAll : (stmts : List Stmt) → PlainAll stmts →
    {annotator : Annotator} → Knows annotator protos returnType →
    {vars : Variables} →
    ChecksAll (HasType protos) returnType annotator.varTypes stmts vars →
    (annotateAll annotator stmts).result = .ok () ∧
      (annotateAll annotator stmts).annotator.varTypes = vars
  | [], _, annotator, _, vars, hchecks => by
    cases hchecks with | nil =>
    exact ⟨rfl, rfl⟩
  | stmt :: stmts, hplain, annotator, hknows, vars, hchecks => by
    obtain ⟨hstmtPlain, hstmtsPlain⟩ := plainAll_cons_iff.1 hplain
    cases hchecks with | cons hstmt hstmts =>
    obtain ⟨hstmtResult, rfl⟩ := annotate_of_checks stmt hstmtPlain hknows hstmt
    obtain ⟨hstmtsResult, rfl⟩ :=
      annotateAll_of_checksAll stmts hstmtsPlain (hknows.annotate stmt) hstmts
    refine ⟨annotateAll_cons_ok_iff.2 ⟨hstmtResult, hstmtsResult⟩, ?_⟩
    rw [(annotateAll_cons_ok stmts hstmtResult).2]

end

end Checked

end Stmt

end Frontend
