import Frontend.Proofs.Annotation.Effects
import Frontend.Proofs.RoundTrip
import Frontend.Typing.Module

/-!
# Annotated modules

A parsed module is annotated exactly if its declarations check in their order, and then its
annotated declarations check with every expression tagged.

- `declareParams_cases`: the parameters of a declaration come into scope exactly if their
  names are distinct
- `declareParams_eq_error_iff`: the error names the first parameter that cannot come into scope
- `checks_of_annotate`, `annotate_of_checks`: one declaration after others
- `compile_iff_declsCheck`: the whole way from the source
-/

namespace Frontend

/-! ## Parameters -/

namespace Annotator

/-- The parameters can come into scope: their names differ, also from what is there. -/
def Fresh (annotator : Annotator) (params : List Param) : Prop :=
  (params.map Param.name).Nodup ∧ ∀ param ∈ params, annotator.varTypes param.name = none

theorem fresh_nil (annotator : Annotator) : annotator.Fresh [] := by
  simp [Fresh]

theorem fresh_cons_iff {annotator : Annotator} {param : Param} {params : List Param} :
    annotator.Fresh (param :: params) ↔
      annotator.varTypes param.name = none ∧
        (annotator.declare param.name param.type).Fresh params := by
  have hset (other : Param) :
      (annotator.declare param.name param.type).varTypes other.name = none ↔
        other.name ≠ param.name ∧ annotator.varTypes other.name = none := by
    rw [varTypes_declare, Variables.set]
    by_cases hname : other.name = param.name <;> simp [hname]
  simp only [Fresh, List.map_cons, List.nodup_cons, List.forall_mem_cons, hset]
  constructor
  · rintro ⟨⟨hnew, hdistinct⟩, hparam, hparams⟩
    refine ⟨hparam, hdistinct, fun other hother => ⟨fun hname => hnew ?_, hparams other hother⟩⟩
    exact hname ▸ List.mem_map_of_mem hother
  · rintro ⟨hparam, hdistinct, hparams⟩
    refine ⟨⟨fun hmem => ?_, hdistinct⟩, hparam, fun other hother => (hparams other hother).2⟩
    obtain ⟨other, hother, hname⟩ := List.mem_map.1 hmem
    exact (hparams other hother).1 hname

theorem declareParams_cases (function : String) (params : List Param) (annotator : Annotator) :
    match annotator.declareParams function params with
    | (declared, .ok ()) => annotator.Fresh params ∧ declared.varTypes = fun name =>
      (Variables.ofParams params name).or (annotator.varTypes name)
    | (_, .error _) => ¬annotator.Fresh params := by
  induction params generalizing annotator with
  | nil => exact ⟨⟨List.nodup_nil, nofun⟩, rfl⟩
  | cons param params ih =>
    rw [declareParams, declareParam]
    cases hlookup : annotator.scope.lookup param.name with
    | some type =>
      rw [if_pos (by simp)]
      dsimp only
      rw [fresh_cons_iff, varTypes, hlookup]
      simp
    | none =>
      rw [if_neg (by simp)]
      have hrest := ih (annotator.declare param.name param.type)
      dsimp only
      split
      · rename_i declared hdeclared
        rw [hdeclared] at hrest
        obtain ⟨hfresh, hvarTypes⟩ := hrest
        refine ⟨fresh_cons_iff.2 ⟨hlookup, hfresh⟩, ?_⟩
        rw [hvarTypes]
        funext name
        rw [varTypes_declare, Variables.set, Variables.ofParams, Variables.ofParams,
          List.find?_cons]
        by_cases hname : name = param.name
        · -- the parameter that was declared is not among those that follow it
          subst hname
          have hnone : (params.find? fun other => other.name == param.name) = none := by
            rw [List.find?_eq_none]
            intro other hother hsame
            have hfree := hfresh.2 other hother
            rw [varTypes_declare, Variables.set, if_pos (beq_iff_eq.1 hsame)] at hfree
            cases hfree
          rw [hnone, if_pos rfl, beq_self_eq_true]
          rfl
        · rw [if_neg hname, beq_false_of_ne (Ne.symm hname)]
      · rename_i declared error hdeclared
        rw [hdeclared] at hrest
        exact fun hfresh => hrest (fresh_cons_iff.1 hfresh).2

/-- Parameters come into scope one by one up to the first that cannot. -/
theorem declareParams_eq_error_iff {function : String} {params : List Param}
    {annotator : Annotator} {error : Error} :
    (annotator.declareParams function params).2 = .error error ↔
      ∃ before param after, params = before ++ param :: after ∧ annotator.Fresh before ∧
        ¬annotator.Fresh (before ++ [param]) ∧
        error = .parameterRedefinition function param.name := by
  induction params generalizing annotator with
  | nil => simp [declareParams]
  | cons first params ih =>
    rw [declareParams, declareParam]
    cases hlookup : annotator.scope.lookup first.name with
    | some type =>
      have htaken (others : List Param) : ¬annotator.Fresh (first :: others) := by
        rw [fresh_cons_iff, varTypes, hlookup]
        simp
      rw [if_pos (by simp)]
      constructor
      · intro herror
        cases herror
        exact ⟨[], first, params, rfl, annotator.fresh_nil, htaken [], rfl⟩
      · rintro ⟨before, param, after, hsplit, hbefore, -, rfl⟩
        cases before with
        | nil =>
          cases hsplit
          rfl
        | cons other before =>
          cases hsplit
          exact absurd hbefore (htaken before)
    | none =>
      have hfresh (others : List Param) : annotator.Fresh (first :: others) ↔
          (annotator.declare first.name first.type).Fresh others := by
        rw [fresh_cons_iff, varTypes, hlookup]
        simp
      rw [if_neg (by simp)]
      dsimp only
      rw [ih]
      constructor
      · rintro ⟨before, param, after, rfl, hbefore, hparam, rfl⟩
        refine ⟨first :: before, param, after, rfl, (hfresh before).2 hbefore, ?_, rfl⟩
        exact mt (hfresh _).1 hparam
      · rintro ⟨before, param, after, hsplit, hbefore, hparam, rfl⟩
        cases before with
        | nil =>
          cases hsplit
          exact absurd ((hfresh []).2 (fresh_nil _)) hparam
        | cons other before =>
          cases hsplit
          exact ⟨before, param, after, rfl, (hfresh before).1 hbefore, mt (hfresh _).2 hparam, rfl⟩

end Annotator

/-! ## One declaration -/

namespace Decl

theorem checkParams_eq_ok_iff (decl : Decl) :
    decl.checkParams = .ok () ↔ (decl.proto.params.map Param.name).Nodup := by
  have hparams := Annotator.declareParams_cases decl.name decl.proto.params .initial
  unfold checkParams
  rcases hdeclared : Annotator.initial.declareParams decl.name decl.proto.params with
    ⟨declared, error | ⟨⟨⟩⟩⟩ <;> rw [hdeclared] at hparams
  · refine ⟨nofun, fun hdistinct => absurd ?_ hparams⟩
    exact ⟨hdistinct, fun _ _ => rfl⟩
  · exact ⟨fun _ => hparams.1.1, fun _ => rfl⟩

theorem varTypes_paramScope (decl : Decl) (hdistinct : (decl.proto.params.map Param.name).Nodup) :
    (fun name => decl.paramScope.lookup name) = Variables.ofParams decl.proto.params := by
  have hparams := Annotator.declareParams_cases decl.name decl.proto.params .initial
  have hcheck := (checkParams_eq_ok_iff decl).2 hdistinct
  unfold checkParams at hcheck
  unfold paramScope
  rcases hdeclared : Annotator.initial.declareParams decl.name decl.proto.params with
    ⟨declared, error | ⟨⟨⟩⟩⟩ <;> rw [hdeclared] at hparams hcheck
  · cases hcheck
  · obtain ⟨-, hvarTypes⟩ := hparams
    show declared.varTypes = _
    rw [hvarTypes]
    funext name
    exact Option.or_none

theorem Registered.represents {decl : Decl} {overloads known : Overloads}
    {earlier : List Prototype} (hregistered : decl.Registered overloads known)
    (hrep : Represents overloads earlier)
    (hidentifier : Token.isIdentifier decl.proto.name = true) :
    Represents known (earlier ++ [decl.proto]) := by
  cases hregistered with
  | there hreturn =>
    exact hrep.snoc_of_mem hidentifier (Overloads.mem_named_of_returnType? hreturn)
  | added hfresh => exact hrep.snoc_of_none hidentifier hfresh

/-- The annotator is ready for the body of a declaration: its parameters are in scope and its
prototype is registered, neither of which met a conflict. -/
structure Ready (earlier : List Prototype) (decl : Decl) (known : Annotator) : Prop where
  distinct : (decl.proto.params.map Param.name).Nodup
  consistent : ∀ proto ∈ earlier, proto.name = decl.proto.name →
    proto.argTypes = decl.proto.argTypes → proto.returnType = decl.proto.returnType
  varTypes : known.varTypes = .ofParams decl.proto.params
  represents : Represents known.overloads (earlier ++ [decl.proto])

/-- A declaration is ready for its body, or it is refused because it does not check. -/
theorem annotate_cases {annotator : Annotator} {earlier : List Prototype}
    (hrep : Represents annotator.overloads earlier) (decl : Decl)
    (hplain : decl.Plain) :
    (∃ known events, Ready earlier decl known ∧
      decl.annotate annotator = decl.annotateReady known events) ∨
    ∃ error, (decl.annotate annotator).result = .error error ∧
      ∀ typed, ¬DeclChecks typed earlier decl := by
  rcases decl.annotate_outcomes annotator with ⟨events, error, hrefuses, hannotate⟩ |
    ⟨known, events, hopens, hannotate⟩
  · refine .inr ⟨error, by rw [hannotate], fun typed hchecks => ?_⟩
    cases hrefuses with
    | params herror =>
      have hparams := (checkParams_eq_ok_iff decl).2 hchecks.distinct
      rw [herror] at hparams
      cases hparams
    | conflict _ hreturn hother =>
      obtain ⟨proto, hproto, hname, hargs, rfl⟩ :=
        (hrep.resolve_call_iff hplain.name).1 (Overloads.resolve_eq_ok_iff.2 hreturn)
      exact hother (hchecks.consistent proto hproto hname hargs)
  · have hdistinct := (checkParams_eq_ok_iff decl).1 hopens.params
    refine .inl ⟨known, events, ⟨hdistinct, fun proto hproto hname hargs => ?_, ?_, ?_⟩, hannotate⟩
    · have hreturn := hopens.registered.toExtends.returnType? (hrep.returnType?_of_mem hproto)
      rw [hname, hargs] at hreturn
      exact Option.some_inj.1 (hreturn.symm.trans hopens.registered.returnType?)
    · rw [← varTypes_paramScope decl hdistinct]
      unfold Annotator.varTypes
      rw [hopens.scope]
    · exact hopens.registered.represents hrep hplain.name

theorem Ready.knows {earlier : List Prototype} {decl : Decl} {known : Annotator}
    (hready : Ready earlier decl known) :
    Stmt.Knows (within known decl.proto) (earlier ++ [decl.proto]) decl.proto.returnType :=
  ⟨hready.represents, decl.proto.name, rfl⟩

/-- A declaration that is annotated checks, before and after, and its prototype is known from then
on. -/
theorem checks_of_annotate {annotator : Annotator} {earlier : List Prototype}
    (hrep : Represents annotator.overloads earlier) {decl : Decl} (hplain : decl.Plain)
    (hresult : (decl.annotate annotator).result = .ok ()) :
    DeclChecks HasType earlier decl ∧
      DeclChecks TaggedType earlier (decl.annotate annotator).node ∧
      (decl.annotate annotator).node.proto = decl.proto ∧
      Represents (decl.annotate annotator).annotator.overloads (earlier ++ [decl.proto]) := by
  obtain ⟨proto, body⟩ := decl
  rcases annotate_cases hrep ⟨proto, body⟩ hplain with
    ⟨known, events, hready, hannotate⟩ | ⟨error, herror, -⟩
  · rw [hannotate] at hresult ⊢
    cases body with
    | none =>
      exact ⟨⟨hready.distinct, hready.consistent, nofun⟩,
        ⟨hready.distinct, hready.consistent, nofun⟩, rfl, hready.represents⟩
    | some body =>
      have hplain := (hplain.body body rfl).2
      have hbody := Stmt.checks_of_annotate body hplain hready.knows hresult
      have hvarTypes : (within known proto).varTypes = .ofParams proto.params := hready.varTypes
      rw [hvarTypes] at hbody
      refine ⟨⟨hready.distinct, hready.consistent, ?_⟩, ⟨hready.distinct, hready.consistent, ?_⟩,
        rfl, ?_⟩
      · rintro body ⟨⟩
        exact ⟨_, hbody.1⟩
      · rintro body ⟨⟩
        exact ⟨_, hbody.2⟩
      · exact (Stmt.annotate_keeps body (within known proto)).1 ▸ hready.represents
  · rw [herror] at hresult
    cases hresult

theorem annotate_of_checks {annotator : Annotator} {earlier : List Prototype}
    (hrep : Represents annotator.overloads earlier) {decl : Decl} (hplain : decl.Plain)
    (hchecks : DeclChecks HasType earlier decl) : (decl.annotate annotator).result = .ok () := by
  obtain ⟨proto, body⟩ := decl
  rcases annotate_cases hrep ⟨proto, body⟩ hplain with
    ⟨known, events, hready, hannotate⟩ | ⟨-, -, hnot⟩
  · rw [hannotate]
    cases body with
    | none => rfl
    | some body =>
      have hplain := (hplain.body body rfl).2
      obtain ⟨vars, hbody⟩ := hchecks.body body rfl
      have hvarTypes : (within known proto).varTypes = .ofParams proto.params := hready.varTypes
      rw [← hvarTypes] at hbody
      exact (Stmt.annotate_of_checks body hplain hready.knows hbody).1
  · exact absurd hchecks (hnot HasType)

theorem untagged_annotate (decl : Decl) (annotator : Annotator) :
    (decl.annotate annotator).node.untagged = decl.untagged := by
  unfold Decl.annotate
  split
  · rfl
  · split
    · rfl
    · split
      · rfl
      · rename_i body hbody
        simp only [untagged, hbody, Option.map_some, Stmt.annotateBody, Stmt.untagged_annotate]

/-! ## Declarations in their order -/

/-- The declarations check one after the other, after others with the given prototypes. -/
def CheckFrom (typed : List Prototype → Variables → Expr → TypeName → Prop) :
    List Prototype → List Decl → Prop
  | _, [] => True
  | earlier, decl :: decls =>
    DeclChecks typed earlier decl ∧ CheckFrom typed (earlier ++ [decl.proto]) decls

theorem checkFrom_iff {typed : List Prototype → Variables → Expr → TypeName → Prop}
    {earlier : List Prototype} {decls : List Decl} :
    CheckFrom typed earlier decls ↔ ∀ before decl after, decls = before ++ decl :: after →
      DeclChecks typed (earlier ++ before.map Decl.proto) decl := by
  induction decls generalizing earlier with
  | nil => simp [CheckFrom]
  | cons first decls ih =>
    rw [CheckFrom, ih]
    constructor
    · rintro ⟨hfirst, hdecls⟩ before decl after hsplit
      cases before with
      | nil =>
        cases hsplit
        rwa [List.map_nil, List.append_nil]
      | cons head before =>
        cases hsplit
        have hdecl := hdecls before decl after rfl
        rwa [List.append_assoc] at hdecl
    · intro hdecls
      refine ⟨?_, fun before decl after hsplit => ?_⟩
      · have hfirst := hdecls [] first decls rfl
        rwa [List.map_nil, List.append_nil] at hfirst
      · have hdecl := hdecls (first :: before) decl after (by rw [hsplit, List.cons_append])
        rwa [List.append_assoc]

theorem declsCheck_iff_checkFrom {typed : List Prototype → Variables → Expr → TypeName → Prop}
    {decls : List Decl} : DeclsCheck typed decls ↔ CheckFrom typed [] decls := by
  rw [checkFrom_iff]
  exact Iff.rfl

theorem untagged_annotateAll (decls : List Decl) (annotator : Annotator) :
    (annotateAll annotator decls).node.map untagged = decls.map untagged := by
  induction decls generalizing annotator with
  | nil => rfl
  | cons decl decls ih =>
    cases hdecl : (decl.annotate annotator).result with
    | error error =>
      rw [annotateAll_cons_of_error decls hdecl, List.map_cons, List.map_cons, untagged_annotate]
    | ok done =>
      rw [annotateAll_cons_of_ok decls hdecl, List.map_cons, List.map_cons, untagged_annotate, ih]

/-- What one declaration leaves is what the next one starts from. -/
theorem checkFrom_of_annotateAll {decls : List Decl}
    (hplain : ∀ decl ∈ decls, decl.Plain) {annotator : Annotator} {earlier : List Prototype}
    (hrep : Represents annotator.overloads earlier)
    (hresult : (annotateAll annotator decls).result = .ok ()) :
    CheckFrom HasType earlier decls ∧
      CheckFrom TaggedType earlier (annotateAll annotator decls).node := by
  induction decls generalizing annotator earlier with
  | nil => exact ⟨trivial, trivial⟩
  | cons decl decls ih =>
    rw [List.forall_mem_cons] at hplain
    obtain ⟨hdeclResult, hdeclsResult⟩ := annotateAll_cons_ok_iff.1 hresult
    obtain ⟨hchecks, htagged, hproto, hknown⟩ := checks_of_annotate hrep hplain.1 hdeclResult
    obtain ⟨hallCheck, hallTagged⟩ := ih hplain.2 hknown hdeclsResult
    rw [annotateAll_cons_of_ok decls hdeclResult]
    exact ⟨⟨hchecks, hallCheck⟩, htagged, hproto.symm ▸ hallTagged⟩

theorem annotateAll_of_checkFrom {decls : List Decl}
    (hplain : ∀ decl ∈ decls, decl.Plain) {annotator : Annotator} {earlier : List Prototype}
    (hrep : Represents annotator.overloads earlier) (hchecks : CheckFrom HasType earlier decls) :
    (annotateAll annotator decls).result = .ok () := by
  induction decls generalizing annotator earlier with
  | nil => rfl
  | cons decl decls ih =>
    rw [List.forall_mem_cons] at hplain
    have hdeclResult : (decl.annotate annotator).result = .ok () :=
      annotate_of_checks hrep hplain.1 hchecks.1
    obtain ⟨-, -, -, hknown⟩ := checks_of_annotate hrep hplain.1 hdeclResult
    exact annotateAll_cons_ok_iff.2
      ⟨hdeclResult, ih hplain.2 hknown hchecks.2⟩

end Decl

/-! ## Compilation -/

/-- The result of a compilation, once the source is parsed. -/
theorem compile_of_parse {name source : String} {module : Module}
    (hparse : (Module.parse name source).1 = .ok module) :
    (compile name source).2 =
      (module.annotate .initial).result.map fun () =>
        ⟨(module.annotate .initial).node, (module.annotate .initial).annotator⟩ := by
  unfold compile
  rcases hresult : Module.parse name source with ⟨error | parsed, state⟩
  · rw [hresult] at hparse
    cases hparse
  · rw [hresult] at hparse
    cases hparse
    rfl

/-- A source that is parsed is compiled exactly if its declarations check in their order.  What is
compiled is the parsed module but for its tags, and each of its expressions is tagged with its
type. -/
theorem compile_iff_declsCheck {name source : String} {module : Module}
    (hparse : (Module.parse name source).1 = .ok module) :
    ((∃ compiled, (compile name source).2 = .ok compiled) ↔ DeclsCheck HasType module.decls) ∧
    ∀ compiled, (compile name source).2 = .ok compiled →
      compiled.module.untagged = module ∧ DeclsCheck TaggedType compiled.module.decls := by
  obtain ⟨-, hplain⟩ := Module.plain_of_parse hparse
  have hinitial : Represents Annotator.initial.overloads [] := represents_builtin
  rw [compile_of_parse hparse, Decl.declsCheck_iff_checkFrom]
  simp only [map_eq_ok_iff]
  refine ⟨⟨?_, fun hchecks => ?_⟩, ?_⟩
  · rintro ⟨compiled, done, hresult, -⟩
    exact (Decl.checkFrom_of_annotateAll hplain hinitial hresult).1
  · exact ⟨_, (), Decl.annotateAll_of_checkFrom hplain hinitial hchecks, rfl⟩
  · rintro compiled ⟨done, hresult, rfl⟩
    refine ⟨?_, Decl.declsCheck_iff_checkFrom.2
      (Decl.checkFrom_of_annotateAll hplain hinitial hresult).2⟩
    show Module.mk module.name ((Decl.annotateAll .initial module.decls).node.map Decl.untagged) =
      module
    have huntagged : module.decls.map Decl.untagged = module.decls.map id :=
      List.map_congr_left fun decl hdecl => (hplain decl hdecl).untagged
    rw [Decl.untagged_annotateAll, huntagged, List.map_id]

/-- A module in which everything checks, and one that negates a truth value. -/
theorem declsCheck_branching_not_negation :
    (DeclsCheck HasType Module.branchingModule.untagged.decls ∧
      ∃ compiled, (compile "m" Module.branchingModule.source).2 = .ok compiled ∧
        compiled.module.untagged = Module.branchingModule.untagged ∧
        DeclsCheck TaggedType compiled.module.decls) ∧
    ¬DeclsCheck HasType (Module.negationModule 1).untagged.decls := by
  have hbranching : (Module.parse "m" Module.branchingModule.source).1 =
      .ok Module.branchingModule.untagged :=
    (Module.parse_source (by decide +kernel)).trans (if_pos (by decide +kernel))
  have hnegation : (Module.parse "m" (Module.negationModule 1).source).1 =
      .ok (Module.negationModule 1).untagged :=
    (Module.parse_source (by decide +kernel)).trans (if_pos (by decide +kernel))
  obtain ⟨compiled, hcompiled⟩ :
      ∃ compiled, (compile "m" Module.branchingModule.source).2 = .ok compiled := by
    rw [compile_of_parse hbranching]
    exact ⟨_, rfl⟩
  have hrefused : ¬∃ compiled,
      (compile "m" (Module.negationModule 1).source).2 = .ok compiled := by
    rw [compile_of_parse hnegation]
    rintro ⟨compiled, hcompiled⟩
    cases hcompiled
  have htagged := (compile_iff_declsCheck hbranching).2 compiled hcompiled
  exact ⟨⟨(compile_iff_declsCheck hbranching).1.1 ⟨compiled, hcompiled⟩, compiled, hcompiled,
    htagged⟩, fun hchecks => hrefused ((compile_iff_declsCheck hnegation).1.2 hchecks)⟩

end Frontend
