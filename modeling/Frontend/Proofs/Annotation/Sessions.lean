import Frontend.Proofs.Annotation.Faults

/-!
# Sessions

A session is a run of requests to one annotator, each of which can succeed or fail.  The trees
that are annotated in it are any trees, with any tags.

* Requests.  `Request.run` is the annotator after one request, `Annotator.after` after several.
* Successful registrations.  `Annotator.Registers` says that in the course of a session an
  overload was registered with success, by a request of its own or as part of the annotation
  of a declaration or module.
* The table in a session.  A request extends the table (`extends_run`), a successful
  registration resolves from then on (`Registers.returnType?_run`), and a name gets its
  entry in no other way (`entry_run`).  `overloads_stable` puts these together for whole
  sessions.
* Functions in a session.  No request leaves a function current (`function_run`), and a
  declaration clears the scope before it reads it.  `functions_isolated` says what follows for
  the next declaration and for a `return` outside of one.
-/

namespace Frontend

/-! ## Requests -/

/-- What an annotator can be asked to do. -/
inductive Request where
  | declare (name : String) (type : TypeName)
  | declareParam (function : String) (param : Param)
  | clearVariables
  | register (name : String) (signature : Signature)
  | annotateExpr (expr : Expr)
  | annotateStmt (stmt : Stmt)
  | annotateDecl (decl : Decl)
  | annotateModule (module : Module)

/-- The annotator after a request, also if that failed.  The annotation of an expression finds the
types of variables and picks overloads, and both only read what is known: `Expr.annotate` answers
a tree, events and a type, and no annotator.  So what is known after it is what was known before,
also if it fails. -/
def Request.run (annotator : Annotator) : Request → Annotator
  | .declare name type => annotator.declare name type
  | .declareParam function param =>
    match annotator.declareParam function param with
    | .ok declared => declared
    | .error _ => annotator
  | .clearVariables => annotator.clearVariables
  | .register name signature => (annotator.register name signature).1
  | .annotateExpr _ => annotator
  | .annotateStmt stmt => (stmt.annotate annotator).annotator
  | .annotateDecl decl => (decl.annotate annotator).annotator
  | .annotateModule module => (module.annotate annotator).annotator

/-- The annotator after a session. -/
def Annotator.after (annotator : Annotator) (requests : List Request) : Annotator :=
  requests.foldl Request.run annotator

/-! ## Successful registrations -/

namespace Decl

/-- The annotation of the declaration comes to the registration of its overload, and that
succeeds. -/
def Registers (decl : Decl) (annotator : Annotator) : Prop :=
  ∃ declared, annotator.clearVariables.declareParams decl.name decl.proto.params =
      (declared, .ok ()) ∧
    (declared.register decl.name decl.proto.signature).2.2 = .ok ()

/-- While the declarations are annotated in their order, an overload is registered. -/
inductive RegistersAmong : Annotator → List Decl → String → Signature → Prop
  | head {annotator : Annotator} {decl : Decl} {decls : List Decl}
      (hdecl : decl.Registers annotator) :
      RegistersAmong annotator (decl :: decls) decl.name decl.proto.signature
  | tail {annotator : Annotator} {decl : Decl} {decls : List Decl} {name : String}
      {signature : Signature} (hresult : (decl.annotate annotator).result = .ok ())
      (hdecls : RegistersAmong (decl.annotate annotator).annotator decls name signature) :
      RegistersAmong annotator (decl :: decls) name signature

end Decl

/-- In the course of the request, an overload is registered with success. -/
inductive Request.Registers (annotator : Annotator) : Request → String → Signature → Prop
  | register {name : String} {signature : Signature}
      (hresult : (annotator.register name signature).2.2 = .ok ()) :
      Registers annotator (.register name signature) name signature
  | decl {decl : Decl} (hdecl : decl.Registers annotator) :
      Registers annotator (.annotateDecl decl) decl.name decl.proto.signature
  | module {module : Module} {name : String} {signature : Signature}
      (hdecls : Decl.RegistersAmong annotator module.decls name signature) :
      Registers annotator (.annotateModule module) name signature

/-- In the course of the session, an overload is registered with success. -/
inductive Annotator.Registers : Annotator → List Request → String → Signature → Prop
  | head {annotator : Annotator} {request : Request} {requests : List Request} {name : String}
      {signature : Signature} (hrequest : request.Registers annotator name signature) :
      Registers annotator (request :: requests) name signature
  | tail {annotator : Annotator} {request : Request} {requests : List Request} {name : String}
      {signature : Signature}
      (hrequests : Registers (request.run annotator) requests name signature) :
      Registers annotator (request :: requests) name signature

/-! ## The table in one request -/

namespace Decl

/-- The overload of a declaration is registered exactly if its body is come to. -/
theorem registers_iff_opens {decl : Decl} {annotator : Annotator} :
    decl.Registers annotator ↔ ∃ known events, decl.Opens annotator known ∧
      decl.annotate annotator = decl.annotateReady known events := by
  have hparams := decl.declareParams_clearVariables annotator
  constructor
  · rintro ⟨declared, hdeclared, hregister⟩
    rw [hparams, Prod.mk.injEq] at hdeclared
    obtain ⟨rfl, hcheck⟩ := hdeclared
    rcases decl.annotate_outcomes annotator with ⟨events, error, hrefuses, -⟩ | hopens
    · cases hrefuses with
      | params herror =>
        rw [hcheck] at herror
        cases herror
      | conflict _ hreturn hother =>
        exact absurd (Annotator.register_eq_ok_iff.1 hregister _ hreturn) hother
    · exact hopens
  · rintro ⟨known, events, hopens, -⟩
    refine ⟨_, hparams.trans (by rw [hopens.params]), ?_⟩
    refine Annotator.register_eq_ok_iff.2 fun existing (hexisting : annotator.overloads.returnType?
      decl.name decl.proto.argTypes = some existing) => ?_
    have hreturn := hopens.registered.toExtends.returnType? hexisting
    exact Option.some_inj.1 (hreturn.symm.trans hopens.registered.returnType?)

theorem Registers.returnType?_annotate {decl : Decl} {annotator : Annotator}
    (hregisters : decl.Registers annotator) :
    (decl.annotate annotator).annotator.overloads.returnType? decl.name decl.proto.argTypes =
      some decl.proto.returnType := by
  obtain ⟨known, events, hopens, hannotate⟩ := registers_iff_opens.1 hregisters
  rw [hannotate, overloads_annotateReady]
  exact hopens.registered.returnType?

theorem entry_annotate {decl : Decl} {annotator : Annotator} {name : String}
    {signatures : List Signature}
    (hentry : (decl.annotate annotator).annotator.overloads.lookup name = some signatures) :
    (∃ before, annotator.overloads.lookup name = some before) ∨
      name = decl.name ∧ decl.Registers annotator := by
  rcases decl.annotate_outcomes annotator with ⟨events, error, -, hannotate⟩ |
    ⟨known, events, hopens, hannotate⟩
  · rw [hannotate] at hentry
    exact .inl ⟨signatures, hentry⟩
  · by_cases hname : name = decl.name
    · exact .inr ⟨hname, registers_iff_opens.2 ⟨known, events, hopens, hannotate⟩⟩
    · rw [hannotate, overloads_annotateReady, hopens.registered.lookup_of_ne hname] at hentry
      exact .inl ⟨signatures, hentry⟩

theorem RegistersAmong.returnType?_annotateAll {annotator : Annotator} {decls : List Decl}
    {name : String} {signature : Signature}
    (hregisters : RegistersAmong annotator decls name signature) :
    (annotateAll annotator decls).annotator.overloads.returnType? name signature.argTypes =
      some signature.returnType := by
  induction hregisters with
  | @head annotator decl decls hdecl =>
    have hreturn := hdecl.returnType?_annotate
    cases hresult : (decl.annotate annotator).result with
    | error error =>
      rw [annotateAll_cons_of_error decls hresult]
      exact hreturn
    | ok done =>
      rw [annotateAll_cons_of_ok decls hresult]
      exact (extends_annotateAll decls _).returnType? hreturn
  | @tail annotator decl decls name signature hresult _ ih =>
    rw [annotateAll_cons_of_ok decls hresult]
    exact ih

theorem entry_annotateAll {decls : List Decl} {annotator : Annotator} {name : String}
    {signatures : List Signature}
    (hentry : (annotateAll annotator decls).annotator.overloads.lookup name = some signatures) :
    (∃ before, annotator.overloads.lookup name = some before) ∨
      ∃ signature, RegistersAmong annotator decls name signature := by
  induction decls generalizing annotator with
  | nil => exact .inl ⟨signatures, hentry⟩
  | cons decl decls ih =>
    have hfirst {found : List Signature}
        (hfound : (decl.annotate annotator).annotator.overloads.lookup name = some found) :
        (∃ before, annotator.overloads.lookup name = some before) ∨
          ∃ signature, RegistersAmong annotator (decl :: decls) name signature := by
      rcases entry_annotate hfound with hbefore | ⟨rfl, hdecl⟩
      · exact .inl hbefore
      · exact .inr ⟨decl.proto.signature, .head hdecl⟩
    cases hresult : (decl.annotate annotator).result with
    | error error =>
      rw [annotateAll_cons_of_error decls hresult] at hentry
      exact hfirst hentry
    | ok done =>
      rw [annotateAll_cons_of_ok decls hresult] at hentry
      rcases ih hentry with ⟨found, hfound⟩ | ⟨signature, hdecls⟩
      · exact hfirst hfound
      · exact .inr ⟨signature, .tail hresult hdecls⟩

end Decl

namespace Request

theorem keeps_declareParam (annotator : Annotator) (function : String) (param : Param) :
    (run annotator (.declareParam function param)).overloads = annotator.overloads ∧
      (run annotator (.declareParam function param)).function = annotator.function := by
  rw [run, Annotator.declareParam]
  by_cases htaken : (annotator.scope.lookup param.name).isSome = true
  · rw [if_pos htaken]
    exact ⟨rfl, rfl⟩
  · rw [if_neg htaken]
    exact ⟨rfl, rfl⟩

/-- A request extends the table, also if it fails. -/
theorem extends_run (request : Request) (annotator : Annotator) :
    annotator.overloads.Extends (request.run annotator).overloads := by
  cases request with
  | declare | clearVariables | annotateExpr => exact .refl
  | declareParam function param =>
    rw [(keeps_declareParam annotator function param).1]
    exact .refl
  | register name signature => exact annotator.extends_register name signature
  | annotateStmt stmt =>
    rw [run, (stmt.annotate_keeps annotator).1]
    exact .refl
  | annotateDecl decl => exact decl.extends_annotate annotator
  | annotateModule module => exact Decl.extends_annotateAll module.decls annotator

/-- An overload that is registered in a request is found after it. -/
theorem Registers.returnType?_run {annotator : Annotator} {request : Request} {name : String}
    {signature : Signature} (hregisters : request.Registers annotator name signature) :
    (request.run annotator).overloads.returnType? name signature.argTypes =
      some signature.returnType := by
  cases hregisters with
  | register hresult => exact Annotator.returnType?_register hresult
  | decl hdecl => exact hdecl.returnType?_annotate
  | module hdecls => exact hdecls.returnType?_annotateAll

/-- A name that has an entry after a request had it before, or else an overload of it was
registered. -/
theorem entry_run {annotator : Annotator} {request : Request} {name : String}
    {signatures : List Signature}
    (hentry : (request.run annotator).overloads.lookup name = some signatures) :
    (∃ before, annotator.overloads.lookup name = some before) ∨
      ∃ signature, request.Registers annotator name signature := by
  cases request with
  | declare | clearVariables | annotateExpr => exact .inl ⟨signatures, hentry⟩
  | declareParam function param =>
    rw [(keeps_declareParam annotator function param).1] at hentry
    exact .inl ⟨signatures, hentry⟩
  | register other signature =>
    rcases Annotator.lookup_register hentry with hbefore | ⟨rfl, hresult⟩
    · exact .inl hbefore
    · exact .inr ⟨signature, .register hresult⟩
  | annotateStmt stmt =>
    rw [run, (stmt.annotate_keeps annotator).1] at hentry
    exact .inl ⟨signatures, hentry⟩
  | annotateDecl decl =>
    rcases Decl.entry_annotate hentry with hbefore | ⟨rfl, hdecl⟩
    · exact .inl hbefore
    · exact .inr ⟨decl.proto.signature, .decl hdecl⟩
  | annotateModule module =>
    rcases Decl.entry_annotateAll hentry with hbefore | ⟨signature, hdecls⟩
    · exact .inl hbefore
    · exact .inr ⟨signature, .module hdecls⟩

end Request

/-! ## The table in a session -/

namespace Annotator

theorem extends_after (annotator : Annotator) (requests : List Request) :
    annotator.overloads.Extends (annotator.after requests).overloads := by
  induction requests generalizing annotator with
  | nil => exact .refl
  | cons request requests ih =>
    exact (request.extends_run annotator).trans (ih (request.run annotator))

/-- An overload that is registered in a session is found after it. -/
theorem Registers.returnType?_after {annotator : Annotator} {requests : List Request}
    {name : String} {signature : Signature}
    (hregisters : annotator.Registers requests name signature) :
    (annotator.after requests).overloads.returnType? name signature.argTypes =
      some signature.returnType := by
  induction hregisters with
  | @head annotator request requests name signature hrequest =>
    exact (extends_after _ requests).returnType? hrequest.returnType?_run
  | tail _ ih => exact ih

/-- A name gets its entry in a session by the registration of an overload. -/
theorem entry_after {annotator : Annotator} {requests : List Request} {name : String}
    {signatures : List Signature}
    (hentry : (annotator.after requests).overloads.lookup name = some signatures) :
    (∃ before, annotator.overloads.lookup name = some before) ∨
      ∃ signature, annotator.Registers requests name signature := by
  induction requests generalizing annotator with
  | nil => exact .inl ⟨signatures, hentry⟩
  | cons request requests ih =>
    rcases ih hentry with ⟨found, hfound⟩ | ⟨signature, hrequests⟩
    · rcases Request.entry_run hfound with hbefore | ⟨signature, hrequest⟩
      · exact .inl hbefore
      · exact .inr ⟨signature, .head hrequest⟩
    · exact .inr ⟨signature, .tail hrequests⟩

/-- In every session with a new annotator:  no entry of the table is empty and the overloads of a
name differ in their arguments; the operators have kept their overloads, in their place; a name is
unknown exactly if it is no operator and was not registered; and whatever resolves, as all
that was registered does, resolves to the same type however the session goes on. -/
theorem overloads_stable (past future : List Request) :
    let state := initial.after past
    let later := state.after future
    (∀ name signatures, state.overloads.lookup name = some signatures →
      signatures ≠ [] ∧ (signatures.map Signature.argTypes).Nodup) ∧
    (∀ name signatures, Overloads.builtin.lookup name = some signatures →
      ∃ current, state.overloads.lookup name = some current ∧ signatures <+: current) ∧
    (∀ name argTypes, state.resolve name argTypes = .error (.functionNotDeclared name) ↔
      name ∉ Operator.all ∧ ∀ signature, ¬initial.Registers past name signature) ∧
    (∀ name argTypes type, state.resolve name argTypes = .ok type →
      later.resolve name argTypes = .ok type) ∧
    ∀ name signature, initial.Registers past name signature →
      later.resolve name signature.argTypes = .ok signature.returnType := by
  intro state later
  have hpast : Overloads.builtin.Extends state.overloads := initial.extends_after past
  have hfuture : state.overloads.Extends later.overloads := state.extends_after future
  have hwell := hpast.wellFormed Overloads.builtin_wellFormed
  -- all but the third part are facts about extended tables; the third needs to know how an entry
  -- comes into the table
  refine ⟨fun name signatures hentry => ?_, fun name signatures => hpast.lookup,
    fun name argTypes => ?_, fun name argTypes type => hfuture.resolve,
    fun name signature hregisters => ?_⟩
  · exact ⟨hwell.ne_nil name signatures hentry, hwell.distinct name signatures hentry⟩
  · rw [resolve, Overloads.resolve_eq_functionNotDeclared_iff, eq_self, true_and]
    constructor
    · intro hnone
      refine ⟨fun hoperator => ?_, fun signature hregisters => ?_⟩
      · obtain ⟨signatures, hbuiltin⟩ := Overloads.lookup_builtin_isSome_iff.2 hoperator
        obtain ⟨current, hcurrent, -⟩ := hpast.lookup hbuiltin
        rw [hnone] at hcurrent
        cases hcurrent
      · obtain ⟨signatures, hentry⟩ := Overloads.lookup_of_returnType? hregisters.returnType?_after
        rw [hnone] at hentry
        cases hentry
    · rintro ⟨hoperator, hregisters⟩
      cases hentry : state.overloads.lookup name with
      | none => rfl
      | some signatures =>
        rcases entry_after hentry with hbuiltin | ⟨signature, hregistered⟩
        · exact absurd (Overloads.lookup_builtin_isSome_iff.1 hbuiltin) hoperator
        · exact absurd hregistered (hregisters signature)
  · exact hfuture.resolve (Overloads.resolve_eq_ok_iff.2 hregisters.returnType?_after)

end Annotator

/-! ## Functions in a session -/

/-- A request leaves no function current, also if it fails. -/
theorem Request.function_run (request : Request) {annotator : Annotator}
    (hfunction : annotator.function = none) : (request.run annotator).function = none := by
  cases request with
  | declare | clearVariables | annotateExpr => exact hfunction
  | declareParam function param =>
    exact (keeps_declareParam annotator function param).2.trans hfunction
  | register name signature =>
    rcases annotator.register_cases name signature with ⟨-, hregister⟩ | ⟨_, -, -, hregister⟩ |
      ⟨-, hregister⟩ <;> rw [run, hregister] <;> exact hfunction
  | annotateStmt stmt => exact (stmt.annotate_keeps annotator).2.trans hfunction
  | annotateDecl decl => exact decl.function_annotate hfunction
  | annotateModule module => exact Decl.function_annotateAll module.decls hfunction

namespace Annotator

theorem function_after {annotator : Annotator} (hfunction : annotator.function = none)
    (requests : List Request) : (annotator.after requests).function = none := by
  induction requests generalizing annotator with
  | nil => exact hfunction
  | cons request requests ih => exact ih (request.function_run hfunction)

/-- The annotation of a declaration comes out the same in every respect, whatever variables were in
scope before it.  And between the requests of a session no function is current, so a `return`
outside a function succeeds if its value does, and no statement fails for the type of a `return`
in it. -/
theorem functions_isolated (overloads : Overloads) (function : Option (String × TypeName))
    (scope other : List (String × TypeName)) (decl : Decl) (requests : List Request) :
    decl.annotate ⟨scope, overloads, function⟩ = decl.annotate ⟨other, overloads, function⟩ ∧
    let state := initial.after requests
    state.function = none ∧
    (∀ value, (Stmt.annotate state (.ret value)).result =
      (value.annotate state).result.map fun _ => ()) ∧
    ∀ stmt name expected received,
      (Stmt.annotate state stmt).result ≠ .error (.returnTypeMismatch name expected received) := by
  have hfunction : (initial.after requests).function = none := function_after rfl requests
  refine ⟨?_, hfunction, fun value => ?_, fun stmt name expected received hresult => ?_⟩
  · have hclear : clearVariables ⟨scope, overloads, function⟩ =
        clearVariables ⟨other, overloads, function⟩ := rfl
    unfold Decl.annotate
    rw [hclear]
  · rw [Stmt.annotate]
    dsimp only
    cases (value.annotate (initial.after requests)).result with
    | error error => rfl
    | ok type =>
      show (initial.after requests).checkReturn type = .ok ()
      rw [checkReturn, hfunction]
  · cases Stmt.fault_annotate stmt hresult with
    | ret hcurrent =>
      rw [hfunction] at hcurrent
      cases hcurrent

end Annotator

end Frontend
