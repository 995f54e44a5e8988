import Frontend.Proofs.Annotation.Stmt
import Frontend.Typing.Module

/-!
# What an annotation does to what is known

The annotation of a declaration in terms of the annotator that it starts from and the one
that it leaves.

* Parameters.  `declareParams_of_scope` says that they are declared in the scope alone, so they
  come out the same whatever else is known.
* Declarations.  `annotate_outcomes` says all that can happen: the declaration is refused
  before its body is looked at, and then only the scope changes, or its body is annotated with the
  parameters in scope and the overload in its place.
* Declarations in their order.  `annotateAll_cons_of_ok` and `annotateAll_cons_of_error` say what
  the first of them leaves to the others, and `annotateAll_induction` carries a property from one
  to the next, whether they succeed or not.
-/

namespace Frontend

/-! ## Parameters -/

/-- Parameters are declared in the scope: nothing else is read or written. -/
theorem Annotator.declareParams_of_scope (function : String) (params : List Param)
    {annotator other : Annotator} (hscope : annotator.scope = other.scope) :
    annotator.declareParams function params =
      ({ annotator with scope := (other.declareParams function params).1.scope },
        (other.declareParams function params).2) := by
  induction params generalizing annotator other with
  | nil =>
    rw [declareParams, declareParams, ← hscope]
  | cons param params ih =>
    rw [declareParams, declareParam, declareParams, declareParam, hscope]
    by_cases htaken : (other.scope.lookup param.name).isSome = true
    · rw [if_pos htaken, if_pos htaken]
      dsimp only
      rw [← hscope]
    · rw [if_neg htaken, if_neg htaken]
      have hdeclared : (annotator.declare param.name param.type).scope =
          (other.declare param.name param.type).scope := by
        rw [declare, declare, hscope]
      exact ih hdeclared

/-- The table has no other return type for the arguments of the prototype. -/
def Prototype.Fits (proto : Prototype) (overloads : Overloads) : Prop :=
  ∀ type, overloads.returnType? proto.name proto.argTypes = some type → type = proto.returnType

namespace Decl

/-- The scope that the parameters of the declaration make. -/
def paramScope (decl : Decl) : List (String × TypeName) :=
  (Annotator.initial.declareParams decl.name decl.proto.params).1.scope

/-- Whether the parameters of the declaration can be in one scope. -/
def checkParams (decl : Decl) : Except Error Unit :=
  (Annotator.initial.declareParams decl.name decl.proto.params).2

theorem declareParams_clearVariables (decl : Decl) (annotator : Annotator) :
    annotator.clearVariables.declareParams decl.name decl.proto.params =
      ({ annotator with scope := decl.paramScope }, decl.checkParams) :=
  Annotator.declareParams_of_scope decl.name decl.proto.params rfl

/-! ## Declarations -/

/-- The declaration is refused, for a reason that its prototype gives. -/
inductive Refuses (decl : Decl) (annotator : Annotator) : Error → Prop
  | params {error : Error} (hparams : decl.checkParams = .error error) :
      Refuses decl annotator error
  | conflict {existing : TypeName} (hparams : decl.checkParams = .ok ())
      (hreturn : annotator.overloads.returnType? decl.name decl.proto.argTypes = some existing)
      (hother : existing ≠ decl.proto.returnType) :
      Refuses decl annotator (.conflictingOverload decl.name (TypeName.list decl.proto.argTypes)
        existing decl.proto.returnType)

/-- The overload of the declaration is in its place: it was there, or it has been added. -/
inductive Registered (decl : Decl) (overloads : Overloads) : Overloads → Prop
  | there (hreturn : overloads.returnType? decl.name decl.proto.argTypes =
      some decl.proto.returnType) : Registered decl overloads overloads
  | added (hfresh : overloads.returnType? decl.name decl.proto.argTypes = none) :
      Registered decl overloads (overloads.add decl.name decl.proto.signature)

/-- The declaration opens: its body is annotated with what is known then. -/
structure Opens (decl : Decl) (annotator known : Annotator) : Prop where
  params : decl.checkParams = .ok ()
  scope : known.scope = decl.paramScope
  function : known.function = annotator.function
  registered : decl.Registered annotator.overloads known.overloads

/-- The rest of the annotation, once the annotator is ready. -/
def annotateReady (known : Annotator) (events : List Event) (decl : Decl) : Pass Decl :=
  match decl.body with
  | none => ⟨⟨decl, events, .ok ()⟩, known⟩
  | some body =>
    let body := body.annotateBody known decl.proto
    ⟨⟨{ decl with body := some body.node }, events ++ body.events, body.result⟩, body.annotator⟩

/-- The annotator inside the body of a declaration. -/
def within (known : Annotator) (proto : Prototype) : Annotator :=
  { known with function := some (proto.name, proto.returnType) }

/-- All that the annotation of a declaration can come to. -/
theorem annotate_outcomes (decl : Decl) (annotator : Annotator) :
    (∃ events error, decl.Refuses annotator error ∧ decl.annotate annotator =
      ⟨⟨decl, events, .error error⟩, { annotator with scope := decl.paramScope }⟩) ∨
    ∃ known events, decl.Opens annotator known ∧
      decl.annotate annotator = decl.annotateReady known events := by
  unfold Decl.annotate
  rw [declareParams_clearVariables]
  cases hparams : decl.checkParams with
  | error error => exact .inl ⟨_, error, .params hparams, rfl⟩
  | ok done =>
    dsimp only
    let entered : Annotator := { annotator with scope := decl.paramScope }
    rcases entered.register_cases decl.name decl.proto.signature with ⟨hreturn, hregister⟩ |
      ⟨existing, hother, hreturn, hregister⟩ | ⟨hfresh, hregister⟩ <;> rw [hregister]
    · exact .inr ⟨entered, _, ⟨hparams, rfl, rfl, .there hreturn⟩, rfl⟩
    · exact .inl ⟨_, _, .conflict hparams hreturn hother, rfl⟩
    · exact .inr
        ⟨{ entered with overloads := entered.overloads.add decl.name decl.proto.signature },
          _, ⟨hparams, rfl, rfl, .added hfresh⟩, rfl⟩

/-- A declaration whose prototype is in order opens. -/
theorem exists_opens (decl : Decl) {annotator : Annotator} (hparams : decl.checkParams = .ok ())
    (hfits : decl.proto.Fits annotator.overloads) :
    ∃ known events, decl.Opens annotator known ∧
      decl.annotate annotator = decl.annotateReady known events := by
  rcases decl.annotate_outcomes annotator with ⟨_, _, hrefuses, -⟩ | hopens
  · cases hrefuses with
    | params herror =>
      rw [hparams] at herror
      cases herror
    | conflict _ hexisting hother => exact absurd (hfits _ hexisting) hother
  · exact hopens

namespace Registered

variable {decl : Decl} {overloads known : Overloads}

theorem toExtends (hregistered : decl.Registered overloads known) : overloads.Extends known := by
  cases hregistered with
  | there hreturn => exact .refl
  | added hfresh => exact .add .refl hfresh

theorem returnType? (hregistered : decl.Registered overloads known) :
    known.returnType? decl.name decl.proto.argTypes = some decl.proto.returnType := by
  cases hregistered with
  | there hreturn => exact hreturn
  | added hfresh => exact Overloads.returnType?_add hfresh

/-- No other name is touched. -/
theorem lookup_of_ne (hregistered : decl.Registered overloads known) {name : String}
    (hname : name ≠ decl.name) : known.lookup name = overloads.lookup name := by
  cases hregistered with
  | there hreturn => rfl
  | added hfresh => rw [Overloads.lookup_add, if_neg hname]

end Registered

/-- The body leaves the overloads as they are. -/
theorem overloads_annotateReady (decl : Decl) (known : Annotator) (events : List Event) :
    (decl.annotateReady known events).annotator.overloads = known.overloads := by
  unfold annotateReady
  split
  · rfl
  · exact (Stmt.annotate_keeps _ (within known decl.proto)).1

/-- After the body no function is current, unless one was before and there is no body. -/
theorem function_annotateReady (decl : Decl) {known : Annotator} (events : List Event)
    (hfunction : known.function = none) :
    (decl.annotateReady known events).annotator.function = none := by
  unfold annotateReady
  split
  · exact hfunction
  · rfl

theorem extends_annotate (decl : Decl) (annotator : Annotator) :
    annotator.overloads.Extends (decl.annotate annotator).annotator.overloads := by
  rcases decl.annotate_outcomes annotator with ⟨events, error, -, hannotate⟩ |
    ⟨known, events, hopens, hannotate⟩ <;> rw [hannotate]
  · exact .refl
  · rw [overloads_annotateReady]
    exact hopens.registered.toExtends

/-- Whether it succeeds or fails, a declaration leaves no function current. -/
theorem function_annotate (decl : Decl) {annotator : Annotator}
    (hfunction : annotator.function = none) :
    (decl.annotate annotator).annotator.function = none := by
  rcases decl.annotate_outcomes annotator with ⟨events, error, -, hannotate⟩ |
    ⟨known, events, hopens, hannotate⟩ <;> rw [hannotate]
  · exact hfunction
  · exact decl.function_annotateReady events (hopens.function.trans hfunction)

/-! ## Declarations in their order -/

theorem annotateAll_cons_of_ok {annotator : Annotator} {decl : Decl} (decls : List Decl)
    (hdecl : (decl.annotate annotator).result = .ok ()) :
    annotateAll annotator (decl :: decls) =
      ⟨⟨(decl.annotate annotator).node ::
          (annotateAll (decl.annotate annotator).annotator decls).node,
        (decl.annotate annotator).events ++
          (annotateAll (decl.annotate annotator).annotator decls).events,
        (annotateAll (decl.annotate annotator).annotator decls).result⟩,
        (annotateAll (decl.annotate annotator).annotator decls).annotator⟩ := by
  rw [annotateAll, Pass.cons, hdecl]

theorem annotateAll_cons_of_error {annotator : Annotator} {decl : Decl} (decls : List Decl)
    {error : Error} (hdecl : (decl.annotate annotator).result = .error error) :
    annotateAll annotator (decl :: decls) =
      ⟨⟨(decl.annotate annotator).node :: decls, (decl.annotate annotator).events, .error error⟩,
        (decl.annotate annotator).annotator⟩ := by
  rw [annotateAll, Pass.cons, hdecl]

theorem annotateAll_cons_ok_iff {annotator : Annotator} {decl : Decl} {decls : List Decl} :
    (annotateAll annotator (decl :: decls)).result = .ok () ↔
      (decl.annotate annotator).result = .ok () ∧
      (annotateAll (decl.annotate annotator).annotator decls).result = .ok () := by
  cases hdecl : (decl.annotate annotator).result with
  | error error => simp [annotateAll_cons_of_error decls hdecl]
  | ok done => simp [annotateAll_cons_of_ok decls hdecl]

/-- What each declaration keeps is kept by several, up to the first that fails. -/
theorem annotateAll_induction {holds : Annotator → Prop} {decls : List Decl}
    (hstep : ∀ decl ∈ decls, ∀ annotator, holds annotator →
      holds (decl.annotate annotator).annotator)
    {annotator : Annotator} (hholds : holds annotator) :
    holds (annotateAll annotator decls).annotator := by
  induction decls generalizing annotator with
  | nil => exact hholds
  | cons decl decls ih =>
    rw [List.forall_mem_cons] at hstep
    have hfirst := hstep.1 annotator hholds
    cases hdecl : (decl.annotate annotator).result with
    | error error =>
      rw [annotateAll_cons_of_error decls hdecl]
      exact hfirst
    | ok done =>
      rw [annotateAll_cons_of_ok decls hdecl]
      exact ih hstep.2 hfirst

theorem extends_annotateAll (decls : List Decl) (annotator : Annotator) :
    annotator.overloads.Extends (annotateAll annotator decls).annotator.overloads := by
  have hstep (decl : Decl) (_ : decl ∈ decls) (known : Annotator)
      (hextends : annotator.overloads.Extends known.overloads) :
      annotator.overloads.Extends (decl.annotate known).annotator.overloads :=
    hextends.trans (decl.extends_annotate known)
  exact annotateAll_induction hstep .refl

theorem function_annotateAll (decls : List Decl) {annotator : Annotator}
    (hfunction : annotator.function = none) :
    (annotateAll annotator decls).annotator.function = none := by
  have hstep (decl : Decl) (_ : decl ∈ decls) (known : Annotator) (hknown : known.function = none) :
      (decl.annotate known).annotator.function = none :=
    decl.function_annotate hknown
  exact annotateAll_induction hstep hfunction

end Decl

end Frontend
