import Frontend.Proofs.Annotation.Module

/-!
# What an annotation records

The events of an annotation, for trees without tags, and the table of overloads that can be
read off them.

* Expressions and statements record nothing: only a tag that is found in place is told of.
* One declaration.  `annotate_records` says all that its annotation can record and what this
  does to the table.  By the invariant `Represents`, the overload is added exactly if no earlier
  declaration has its name and argument types, which makes `logged` a function of the source alone.
* Declarations in their order.  `annotateAll_records` carries both along, up to the first
  declaration that fails.
-/

namespace Frontend

/-! ## Expressions and statements -/

mutual

theorem Expr.events_annotate (annotator : Annotator) : (expr : Expr) → expr.Plain →
    (expr.annotate annotator).events = []
  | .int .., _ | .float .., _ | .bool .., _ => rfl
  | .var name tag, _ => by
    rw [Expr.annotate]
    cases annotator.variableType name <;> rfl
  | .unary operator operand tag, hplain => by
    obtain ⟨rfl, -, hoperand⟩ := plain_unary_iff.1 hplain
    exact events_annotate annotator operand hoperand
  | .binary operator lhs rhs tag, hplain => by
    obtain ⟨rfl, -, hlhs, hrhs⟩ := plain_binary_iff.1 hplain
    have hevents := events_annotate annotator lhs hlhs
    rw [Expr.annotate]
    cases (lhs.annotate annotator).result with
    | error error => exact hevents
    | ok type => exact List.append_eq_nil_iff.2 ⟨hevents, events_annotate annotator rhs hrhs⟩
  | .call callee args tag, hplain => by
    obtain ⟨rfl, -, hargs⟩ := plain_call_iff.1 hplain
    exact events_annotateAll annotator args hargs

theorem Expr.events_annotateAll (annotator : Annotator) : (exprs : List Expr) →
    PlainAll exprs → (annotateAll annotator exprs).events = []
  | [], _ => rfl
  | expr :: exprs, hplain => by
    obtain ⟨hexpr, hexprs⟩ := plainAll_cons_iff.1 hplain
    have hevents := events_annotate annotator expr hexpr
    rw [annotateAll]
    cases (expr.annotate annotator).result with
    | error error => exact hevents
    | ok type =>
      exact List.append_eq_nil_iff.2 ⟨hevents, events_annotateAll annotator exprs hexprs⟩

end

mutual

theorem Stmt.events_annotate : (stmt : Stmt) → stmt.Plain → (annotator : Annotator) →
    (stmt.annotate annotator).events = []
  | .letVar .., _, _ => rfl
  | .assign target value, hplain, annotator =>
    value.events_annotate annotator (plain_assign_iff.1 hplain).2
  | .ret value, hplain, annotator => value.events_annotate annotator (plain_ret_iff.1 hplain)
  | .ifElse condition thenBranch elseBranch, hplain, annotator => by
    obtain ⟨hcondition, ⟨-, hthen⟩, -, helse⟩ := plain_ifElse_iff.1 hplain
    have hevents := condition.events_annotate annotator hcondition
    have hevents' := events_annotate thenBranch hthen annotator
    rw [Stmt.annotate]
    dsimp only
    split
    · exact hevents
    · split
      · exact List.append_eq_nil_iff.2 ⟨hevents, hevents'⟩
      · rw [hevents, hevents']
        exact events_annotate elseBranch helse _
  | .block stmts, hplain, annotator =>
    events_annotateAll stmts (plain_block_iff.1 hplain) annotator

theorem Stmt.events_annotateAll : (stmts : List Stmt) → PlainAll stmts →
    (annotator : Annotator) → (annotateAll annotator stmts).events = []
  | [], _, _ => rfl
  | stmt :: stmts, hplain, annotator => by
    obtain ⟨hstmt, hstmts⟩ := plainAll_cons_iff.1 hplain
    have hevents := events_annotate stmt hstmt annotator
    rw [annotateAll, Pass.cons]
    split
    · exact hevents
    · exact List.append_eq_nil_iff.2 ⟨hevents, events_annotateAll stmts hstmts _⟩

end

/-! ## Replaying events -/

namespace Overloads

/-- The table after an event, if it tells of a new overload. -/
def after (overloads : Overloads) : Event → Overloads
  | .registered function signature => overloads.add function signature
  | _ => overloads

/-- The table after several events. -/
def replay (overloads : Overloads) (events : List Event) : Overloads :=
  events.foldl after overloads

theorem replay_append (overloads : Overloads) (events later : List Event) :
    overloads.replay (events ++ later) = (overloads.replay events).replay later :=
  List.foldl_append

end Overloads

/-! ## One declaration -/

/-- What tells overloads of a name apart. -/
def Prototype.key (proto : Prototype) : String × List TypeName :=
  (proto.name, proto.argTypes)

/-- A prototype has no overload yet exactly if none of the others has its name and argument
types. -/
theorem Represents.returnType?_eq_none_iff {overloads : Overloads} {protos : List Prototype}
    (hrep : Represents overloads protos) {proto : Prototype}
    (hidentifier : Token.isIdentifier proto.name = true) :
    overloads.returnType? proto.name proto.argTypes = none ↔
      proto.key ∉ protos.map Prototype.key := by
  rw [Option.eq_none_iff_forall_ne_some, List.mem_map]
  constructor
  · rintro hnone ⟨other, hother, hkey⟩
    obtain ⟨hname, hargs⟩ := Prod.mk.inj hkey
    refine hnone other.returnType ?_
    rw [← hname, ← hargs]
    exact hrep.returnType?_of_mem hother
  · intro hnew type hreturn
    obtain ⟨other, hother, hname, hargs, -⟩ :=
      (hrep.resolve_call_iff hidentifier).1 (Overloads.resolve_eq_ok_iff.2 hreturn)
    exact hnew ⟨other, hother, Prod.ext hname hargs⟩

namespace Decl

/-- What the annotation of the declaration records, after declarations with the given prototypes:
that it begins, and that an overload is added if the parameters have distinct names and no earlier
declaration has the same name and argument types. -/
def logged (earlier : List Prototype) (decl : Decl) : List Event :=
  .annotating decl.name decl.isExtern ::
    if (decl.proto.params.map Param.name).Nodup ∧ decl.proto.key ∉ earlier.map Prototype.key then
      [.registered decl.name decl.proto.signature]
    else []

/-- The body of a declaration without tags records nothing. -/
theorem Plain.events_annotateReady {decl : Decl} (hplain : decl.Plain) (known : Annotator)
    (events : List Event) : (decl.annotateReady known events).events = events := by
  unfold annotateReady
  split
  · rfl
  · rename_i body hbody
    have hevents := body.events_annotate (hplain.body body hbody).2 (within known decl.proto)
    show events ++ (body.annotate (within known decl.proto)).events = events
    rw [hevents, List.append_nil]

/-- The annotation adds an overload: the parameters can be in one scope, and there is none for
their types. -/
def Adds (decl : Decl) (overloads : Overloads) : Prop :=
  decl.checkParams = .ok () ∧ overloads.returnType? decl.name decl.proto.argTypes = none

/-- All that the annotation of a declaration can record, with the table that it leaves. -/
theorem annotate_records {decl : Decl} (hplain : decl.Plain) (annotator : Annotator) :
    (decl.Adds annotator.overloads ∧
      (decl.annotate annotator).events =
        [.annotating decl.name decl.isExtern, .registered decl.name decl.proto.signature] ∧
      (decl.annotate annotator).annotator.overloads =
        annotator.overloads.add decl.name decl.proto.signature) ∨
    (¬decl.Adds annotator.overloads ∧
      (decl.annotate annotator).events = [.annotating decl.name decl.isExtern] ∧
      (decl.annotate annotator).annotator.overloads = annotator.overloads) := by
  have hready (known : Annotator) (events : List Event) :
      (decl.annotateReady known events).events = events ∧
        (decl.annotateReady known events).annotator.overloads = known.overloads :=
    ⟨hplain.events_annotateReady known events, decl.overloads_annotateReady known events⟩
  unfold Decl.annotate
  rw [declareParams_clearVariables]
  cases hparams : decl.checkParams with
  | error error =>
    refine .inr ⟨fun hadds => ?_, rfl, rfl⟩
    rw [Adds, hparams] at hadds
    cases hadds.1
  | ok done =>
    dsimp only
    let entered : Annotator := { annotator with scope := decl.paramScope }
    have hfound {type : TypeName}
        (hreturn : annotator.overloads.returnType? decl.name decl.proto.argTypes = some type) :
        ¬decl.Adds annotator.overloads := by
      intro hadds
      rw [hadds.2] at hreturn
      cases hreturn
    rcases entered.register_cases decl.name decl.proto.signature with ⟨hreturn, hregister⟩ |
      ⟨existing, hother, hreturn, hregister⟩ | ⟨hfresh, hregister⟩ <;> rw [hregister]
    · exact .inr ⟨hfound hreturn, hready entered _⟩
    · exact .inr ⟨hfound hreturn, rfl, rfl⟩
    · exact .inl ⟨⟨hparams, hfresh⟩, hready _ _⟩

/-- The events say what becomes of the table. -/
theorem replay_annotate {decl : Decl} (hplain : decl.Plain) (annotator : Annotator) :
    annotator.overloads.replay (decl.annotate annotator).events =
      (decl.annotate annotator).annotator.overloads := by
  rcases annotate_records hplain annotator with ⟨-, hevents, hoverloads⟩ |
    ⟨-, hevents, hoverloads⟩ <;> rw [hevents, hoverloads] <;> rfl

/-- The events are those that the earlier declarations leave to this one. -/
theorem events_annotate {decl : Decl} (hplain : decl.Plain) {annotator : Annotator}
    {earlier : List Prototype} (hrep : Represents annotator.overloads earlier) :
    (decl.annotate annotator).events = decl.logged earlier := by
  have hadds : decl.Adds annotator.overloads ↔
      (decl.proto.params.map Param.name).Nodup ∧ decl.proto.key ∉ earlier.map Prototype.key :=
    and_congr (checkParams_eq_ok_iff decl) (hrep.returnType?_eq_none_iff hplain.name)
  unfold logged
  rcases annotate_records hplain annotator with ⟨hnew, hevents, -⟩ | ⟨hold, hevents, -⟩
  · rw [if_pos (hadds.1 hnew), hevents]
  · rw [if_neg (mt hadds.2 hold), hevents]

/-! ## Declarations in their order -/

/-- What the annotation of several declarations records, one after the other. -/
def logFrom : List Prototype → List Decl → List Event
  | _, [] => []
  | earlier, decl :: decls => decl.logged earlier ++ logFrom (earlier ++ [decl.proto]) decls

/-- The declarations that are visited: all, or those up to the first that fails. -/
structure Visits (annotator : Annotator) (decls visited : List Decl) : Prop where
  begins : visited <+: decls
  all : (annotateAll annotator decls).result = .ok () → visited = decls
  failing : ∀ error, (annotateAll annotator decls).result = .error error →
    ∃ before last, visited = before ++ [last] ∧
      (annotateAll annotator before).result = .ok () ∧
      (annotateAll annotator visited).result = .error error

theorem Visits.cons {annotator : Annotator} {decl : Decl} {decls visited : List Decl}
    (hdecl : (decl.annotate annotator).result = .ok ())
    (hvisits : Visits (decl.annotate annotator).annotator decls visited) :
    Visits annotator (decl :: decls) (decl :: visited) := by
  have hresult (decls : List Decl) : (annotateAll annotator (decl :: decls)).result =
      (annotateAll (decl.annotate annotator).annotator decls).result := by
    rw [annotateAll_cons_of_ok decls hdecl]
  refine ⟨List.cons_prefix_cons.2 ⟨rfl, hvisits.begins⟩, fun hok => ?_, fun error herror => ?_⟩
  · rw [hresult] at hok
    rw [hvisits.all hok]
  · rw [hresult] at herror
    obtain ⟨before, last, hvisited, hbefore, hlast⟩ := hvisits.failing error herror
    refine ⟨decl :: before, last, by rw [hvisited, List.cons_append], ?_, ?_⟩
    · rw [hresult, hbefore]
    · rw [hresult, hlast]

theorem Visits.of_error {annotator : Annotator} {decl : Decl} (decls : List Decl) {error : Error}
    (hdecl : (decl.annotate annotator).result = .error error) :
    Visits annotator (decl :: decls) [decl] := by
  have hresult (decls : List Decl) :
      (annotateAll annotator (decl :: decls)).result = .error error := by
    rw [annotateAll_cons_of_error decls hdecl]
  refine ⟨List.cons_prefix_cons.2 ⟨rfl, List.nil_prefix⟩, fun hok => ?_, fun error' herror => ?_⟩
  · rw [hresult] at hok
    cases hok
  · rw [hresult] at herror
    exact ⟨[], decl, rfl, rfl, (hresult []).trans herror⟩

/-- The events are those of the declarations that are visited, and they say what becomes of the
table.  One declaration that succeeds keeps the invariant for the next. -/
theorem annotateAll_records {decls : List Decl} (hplain : ∀ decl ∈ decls, decl.Plain)
    {annotator : Annotator} {earlier : List Prototype}
    (hrep : Represents annotator.overloads earlier) :
    ∃ visited, Visits annotator decls visited ∧
      (annotateAll annotator decls).events = logFrom earlier visited ∧
      annotator.overloads.replay (annotateAll annotator decls).events =
        (annotateAll annotator decls).annotator.overloads := by
  induction decls generalizing annotator earlier with
  | nil => exact ⟨[], ⟨List.prefix_refl [], fun _ => rfl, nofun⟩, rfl, rfl⟩
  | cons decl decls ih =>
    rw [List.forall_mem_cons] at hplain
    have hevents := events_annotate hplain.1 hrep
    have hreplay := replay_annotate hplain.1 annotator
    cases hdecl : (decl.annotate annotator).result with
    | error error =>
      refine ⟨[decl], .of_error decls hdecl, ?_⟩
      rw [annotateAll_cons_of_error decls hdecl, logFrom, logFrom, List.append_nil]
      exact ⟨hevents, hreplay⟩
    | ok done =>
      obtain ⟨-, -, -, hknown⟩ := checks_of_annotate hrep hplain.1 hdecl
      obtain ⟨visited, hvisits, hlogged, hreplayed⟩ := ih hplain.2 hknown
      refine ⟨decl :: visited, hvisits.cons hdecl, ?_⟩
      rw [annotateAll_cons_of_ok decls hdecl, logFrom, ← hevents, ← hlogged]
      refine ⟨rfl, ?_⟩
      rw [Overloads.replay_append, hreplay, hreplayed]

end Decl

end Frontend
