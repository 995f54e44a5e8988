import Frontend.Proofs.Annotation.Module
import Frontend.Proofs.Annotation.Sessions

/-!
# Declarations that fail

What the annotation of a declaration leaves behind when it fails.  There are three ways to fail.

* Two parameters have one name.  The error names the first parameter that repeats an earlier
  name (`checkParams_eq_error_iff`).
* The overload is refused.  The name gets an entry in the table before the conflict is looked
  for, but where there is a conflict it had one before (`register_of_error`).
* A fault is found in the body.  The overload is registered by then, and stays
  (`Registered.register`).

`annotate_failures` tells the three apart, and `failed_annotation_effects` says what each of them
leaves in a session.
-/

namespace Frontend

/-! ## Parameters -/

/-- The name of the first parameter that has the name of an earlier one. -/
def FirstRepeated (params : List Param) (name : String) : Prop :=
  ∃ before param after, params = before ++ param :: after ∧ (before.map Param.name).Nodup ∧
    param.name ∈ before.map Param.name ∧ param.name = name

namespace Decl

theorem checkParams_eq_error_iff {decl : Decl} {error : Error} :
    decl.checkParams = .error error ↔ ∃ name, FirstRepeated decl.proto.params name ∧
      error = .parameterRedefinition decl.name name := by
  have hfresh (params : List Param) :
      Annotator.initial.Fresh params ↔ (params.map Param.name).Nodup :=
    ⟨fun hfresh => hfresh.1, fun hdistinct => ⟨hdistinct, fun _ _ => rfl⟩⟩
  have hlast (before : List Param) (param : Param)
      (hbefore : (before.map Param.name).Nodup) :
      ¬((before ++ [param]).map Param.name).Nodup ↔ param.name ∈ before.map Param.name := by
    rw [List.map_append, List.map_singleton, List.nodup_append]
    simp [hbefore]
  unfold checkParams
  rw [Annotator.declareParams_eq_error_iff]
  simp only [hfresh]
  constructor
  · rintro ⟨before, param, after, hsplit, hbefore, hparam, rfl⟩
    exact ⟨param.name, ⟨before, param, after, hsplit, hbefore,
      (hlast before param hbefore).1 hparam, rfl⟩, rfl⟩
  · rintro ⟨_, ⟨before, param, after, hsplit, hbefore, hmem, rfl⟩, rfl⟩
    exact ⟨before, param, after, hsplit, hbefore, (hlast before param hbefore).2 hmem, rfl⟩

end Decl

/-! ## Registration -/

/-- A registration that fails changes nothing. -/
theorem Annotator.register_of_error {annotator : Annotator} {name : String} {signature : Signature}
    {error : Error} (hresult : (annotator.register name signature).2.2 = .error error) :
    (annotator.register name signature).1 = annotator := by
  rcases annotator.register_cases name signature with ⟨-, hregister⟩ | ⟨existing, -, -, hregister⟩ |
    ⟨-, hregister⟩ <;> rw [hregister] at hresult ⊢
  cases hresult

namespace Decl

/-- The overload of a declaration comes into its place by a registration that succeeds. -/
theorem Registered.register {decl : Decl} {annotator : Annotator} {overloads : Overloads}
    (hregistered : decl.Registered annotator.overloads overloads) :
    ∃ events, annotator.register decl.name decl.proto.signature =
      ({ annotator with overloads := overloads }, events, .ok ()) := by
  cases hregistered with
  | there hreturn =>
    rcases annotator.register_cases decl.name decl.proto.signature with ⟨-, hregister⟩ |
      ⟨existing, hother, hexisting, -⟩ | ⟨hnone, -⟩
    · exact ⟨[], hregister⟩
    · exact absurd (Option.some_inj.1 (hexisting.symm.trans hreturn)) hother
    · cases hnone.symm.trans hreturn
  | added hfresh =>
    rcases annotator.register_cases decl.name decl.proto.signature with ⟨hreturn, -⟩ |
      ⟨existing, -, hexisting, -⟩ | ⟨-, hregister⟩
    · cases hfresh.symm.trans hreturn
    · cases hfresh.symm.trans hexisting
    · exact ⟨_, hregister⟩

/-- An overload that was there is not added again. -/
theorem Registered.eq_of_mem {decl : Decl} {before after : Overloads}
    (hregistered : decl.Registered before after) (hwell : before.WellFormed)
    (hmem : decl.proto.signature ∈ before.named decl.name) : after = before := by
  cases hregistered with
  | there hreturn => rfl
  | added hfresh => cases hfresh.symm.trans (hwell.returnType?_eq_some_iff.2 hmem)

/-! ## The ways to fail -/

/-- No fault of a body is a conflict between declarations. -/
theorem category_ne_of_fault {overloads : Overloads} {function : Option (String × TypeName)}
    {error : Error} (hfault : Fault overloads function error) :
    error.category ≠ .declarationConflict := by
  cases hfault <;> simp [Error.category]

/-- A declaration that is refused is in conflict with another one or with itself. -/
theorem Refuses.category {decl : Decl} {annotator : Annotator} {error : Error}
    (hrefuses : decl.Refuses annotator error) : error.category = .declarationConflict := by
  cases hrefuses with
  | params hparams =>
    obtain ⟨name, -, rfl⟩ := checkParams_eq_error_iff.1 hparams
    rfl
  | conflict => rfl

/-- A declaration that fails is refused and changes at most the scope, or its overload is in its
place and the fault is one of the body. -/
theorem annotate_failures {decl : Decl} {annotator : Annotator} {error : Error}
    (hresult : (decl.annotate annotator).result = .error error) :
    (decl.Refuses annotator error ∧ (decl.annotate annotator).node = decl ∧
      (decl.annotate annotator).annotator.overloads = annotator.overloads) ∨
    (decl.checkParams = .ok () ∧ error.category ≠ .declarationConflict ∧
      decl.Registered annotator.overloads (decl.annotate annotator).annotator.overloads) := by
  rcases decl.annotate_outcomes annotator with ⟨events, refusal, hrefuses, hannotate⟩ |
    ⟨known, events, hopens, hannotate⟩ <;> rw [hannotate] at hresult ⊢
  · cases hresult
    exact .inl ⟨hrefuses, rfl, rfl⟩
  · rw [overloads_annotateReady]
    refine .inr ⟨hopens.params, ?_, hopens.registered⟩
    obtain ⟨proto, _ | body⟩ := decl
    · cases hresult
    · exact category_ne_of_fault (body.fault_annotate hresult)

theorem repeated_of_error {decl : Decl} {annotator : Annotator} {function name : String}
    (hresult : (decl.annotate annotator).result = .error (.parameterRedefinition function name)) :
    function = decl.name ∧ FirstRepeated decl.proto.params name ∧
      ¬(decl.proto.params.map Param.name).Nodup := by
  rcases annotate_failures hresult with ⟨hrefuses, -⟩ | ⟨-, hcategory, -⟩
  · cases hrefuses with
    | params hparams =>
      obtain ⟨_, hfirst, heq⟩ := checkParams_eq_error_iff.1 hparams
      cases heq
      refine ⟨rfl, hfirst, fun hdistinct => ?_⟩
      cases hparams.symm.trans ((checkParams_eq_ok_iff decl).2 hdistinct)
  · exact absurd rfl hcategory

theorem error_of_repeated {decl : Decl} {annotator : Annotator} {error : Error}
    (hresult : (decl.annotate annotator).result = .error error)
    (hrepeated : ¬(decl.proto.params.map Param.name).Nodup) :
    ∃ name, error = .parameterRedefinition decl.name name := by
  have hparams : decl.checkParams ≠ .ok () := mt (checkParams_eq_ok_iff decl).1 hrepeated
  rcases annotate_failures hresult with ⟨hrefuses, -⟩ | ⟨hok, -⟩
  · cases hrefuses with
    | params herror =>
      obtain ⟨name, -, heq⟩ := checkParams_eq_error_iff.1 herror
      exact ⟨name, heq⟩
    | conflict hok => exact absurd hok hparams
  · exact absurd hok hparams

/-- What a declaration that fails leaves behind, in a session with a new annotator.  It fails for a
repeated parameter exactly if the names of its parameters are not distinct, and then the error
names the first that repeats an earlier one.  A repeated parameter or a conflicting overload leaves
the table and the declaration, with all its tags, as they were.  Any other fault leaves the table
as the registration of the overload does: unchanged if it was there, and with no change to another
entry.  No function is current afterwards, and a registration that fails changes nothing. -/
theorem failed_annotation_effects (requests : List Request) (decl : Decl) (error : Error)
    (hfails : (decl.annotate (Annotator.initial.after requests)).result = .error error) :
    let state := Annotator.initial.after requests
    let pass := decl.annotate state
    ((∃ function name, error = .parameterRedefinition function name) ↔
      ¬(decl.proto.params.map Param.name).Nodup) ∧
    (∀ function name, error = .parameterRedefinition function name →
      function = decl.name ∧ FirstRepeated decl.proto.params name) ∧
    (error.category = .declarationConflict →
      pass.annotator.overloads = state.overloads ∧ pass.node = decl) ∧
    (error.category ≠ .declarationConflict →
      (∃ events, state.register decl.name decl.proto.signature =
        ({ state with overloads := pass.annotator.overloads }, events, .ok ())) ∧
      (decl.proto.signature ∈ state.overloads.named decl.name →
        pass.annotator.overloads = state.overloads) ∧
      ∀ name, name ≠ decl.name →
        pass.annotator.overloads.lookup name = state.overloads.lookup name) ∧
    pass.annotator.function = none ∧
    ∀ name signature refusal, (state.register name signature).2.2 = .error refusal →
      (state.register name signature).1 = state := by
  intro state pass
  have hwell : state.overloads.WellFormed :=
    (Annotator.initial.extends_after requests).wellFormed Overloads.builtin_wellFormed
  have hfunction : state.function = none := Annotator.function_after rfl requests
  refine ⟨⟨?_, fun hrepeated => ⟨decl.name, error_of_repeated hfails hrepeated⟩⟩, ?_, ?_, ?_,
    decl.function_annotate hfunction, fun name signature refusal => Annotator.register_of_error⟩
  · rintro ⟨function, name, rfl⟩
    exact (repeated_of_error hfails).2.2
  · rintro function name rfl
    obtain ⟨hname, hfirst, -⟩ := repeated_of_error hfails
    exact ⟨hname, hfirst⟩
  · intro hconflict
    rcases annotate_failures hfails with ⟨-, hnode, hoverloads⟩ | ⟨-, hcategory, -⟩
    · exact ⟨hoverloads, hnode⟩
    · exact absurd hconflict hcategory
  · intro hfault
    rcases annotate_failures hfails with ⟨hrefuses, -⟩ | ⟨-, -, hregistered⟩
    · exact absurd hrefuses.category hfault
    · exact ⟨hregistered.register, hregistered.eq_of_mem hwell, fun _ => hregistered.lookup_of_ne⟩

/-- An external function two of whose parameters repeat an earlier name. -/
def repeatingDecl : Decl :=
  ⟨⟨"g", [⟨"x", "int"⟩, ⟨"y", "int"⟩, ⟨"y", "bool"⟩, ⟨"x", "int"⟩], "int"⟩, none⟩

/-- An external function that gives truth values. -/
def predicateDecl : Decl :=
  ⟨⟨"f", [⟨"n", "int"⟩], "bool"⟩, none⟩

/-- A function that reads an unknown variable, after an expression that gets its tags. -/
def unboundDecl : Decl :=
  ⟨⟨"g", [⟨"x", "int"⟩], "int"⟩, some (.block [.assign "x" (.unary "-" (.var "x" none) none),
    .ret (.var "z" none)])⟩

/-- The three ways to fail where `f` is known to give numbers. -/
theorem failed_annotation_three_ways :
    let state := Annotator.initial.after [.register "f" ⟨["int"], "int"⟩]
    FirstRepeated repeatingDecl.proto.params "y" ∧
    (predicateDecl.annotate state).annotator.overloads = state.overloads ∧
    ∃ events, state.register "g" ⟨["int"], "int"⟩ =
      ({ state with overloads := (unboundDecl.annotate state).annotator.overloads }, events,
        .ok ()) := by
  intro state
  have hrepeating : (repeatingDecl.annotate state).result =
      .error (.parameterRedefinition "g" "y") := rfl
  have hpredicate : (predicateDecl.annotate state).result =
      .error (.conflictingOverload "f" "int" "int" "bool") := rfl
  have hunbound : (unboundDecl.annotate state).result = .error (.variableNotDeclared "z") := rfl
  refine ⟨?_, ?_, ?_⟩
  · exact ((failed_annotation_effects _ _ _ hrepeating).2.1 "g" "y" rfl).2
  · exact ((failed_annotation_effects _ _ _ hpredicate).2.2.1 rfl).1
  · exact ((failed_annotation_effects _ _ _ hunbound).2.2.2.1 (by decide)).1

end Decl

end Frontend
