import Frontend.Proofs.Annotation.Knowledge
import Frontend.Proofs.Annotation.Module

/-!
# One more declaration

A module that checks still checks with one more external declaration, wherever it stands, unless
it conflicts with what is declared.

* Tables.  `Grants` says that a table gives what another one does, and one return type more.
  That is what each declaration does to the table (`Registered.grants`), and two prototypes that
  do not conflict can do it in either order (`Widens.step`).
* Declarations.  With the wider table every declaration is annotated as before
  (`annotate_of_widens`), and so are several (`annotateAll_of_widens`).
* Insertion.  `insertion_undisturbed` is the result for a whole module.
-/

namespace Frontend

/-! ## Tables -/

/-- All that an added overload changes. -/
theorem Overloads.returnType?_add_eq {overloads : Overloads} {name : String} {signature : Signature}
    (hfresh : overloads.returnType? name signature.argTypes = none) (other : String)
    (argTypes : List TypeName) :
    (overloads.add name signature).returnType? other argTypes =
      if other = name ∧ argTypes = signature.argTypes then some signature.returnType
      else overloads.returnType? other argTypes := by
  by_cases hname : other = name
  · subst hname
    by_cases hargs : argTypes = signature.argTypes
    · rw [if_pos ⟨rfl, hargs⟩, hargs]
      exact returnType?_add hfresh
    · have haccepts : ¬signature.accepts argTypes = true := by
        intro haccepts
        exact hargs (beq_iff_eq.1 haccepts).symm
      rw [if_neg fun hkey => hargs hkey.2, returnType?, named, lookup_add, if_pos rfl,
        Option.getD_some, List.find?_append, List.find?_singleton, if_neg haccepts, Option.or_none,
        returnType?]
  · rw [if_neg fun hkey => hname hkey.1, returnType?, named, lookup_add, if_neg hname, returnType?,
      named]

namespace Prototype

/-- The second table has the return type of the prototype for its arguments, and for all others what
the first table has. -/
def Grants (proto : Prototype) (overloads known : Overloads) : Prop :=
  ∀ name argTypes, known.returnType? name argTypes =
    if name = proto.name ∧ argTypes = proto.argTypes then some proto.returnType
    else overloads.returnType? name argTypes

/-- The prototype can be declared in the first table, and the second one is the first with it
declared. -/
structure Widens (proto : Prototype) (overloads wide : Overloads) : Prop where
  fits : proto.Fits overloads
  grants : proto.Grants overloads wide

/-- Where both are for the same arguments of one function, the prototypes have the same return
type. -/
def Compatible (proto other : Prototype) : Prop :=
  other.name = proto.name → other.argTypes = proto.argTypes → other.returnType = proto.returnType

variable {proto other : Prototype} {overloads known wide knownWide : Overloads}

theorem Grants.fits (hcompatible : proto.Compatible other) (hfits : proto.Fits overloads)
    (hgrants : other.Grants overloads known) : proto.Fits known := by
  intro type htype
  rw [hgrants] at htype
  split at htype
  · rename_i hkey
    rw [← Option.some_inj.1 htype]
    exact hcompatible hkey.1.symm hkey.2.symm
  · exact hfits type htype

namespace Widens

theorem resolve (hwidens : proto.Widens overloads wide) {name : String} {argTypes : List TypeName}
    {type : TypeName} (hresolve : overloads.resolve name argTypes = .ok type) :
    wide.resolve name argTypes = .ok type := by
  rw [Overloads.resolve_eq_ok_iff] at hresolve ⊢
  rw [hwidens.grants]
  split
  · rename_i hkey
    rw [hkey.1, hkey.2] at hresolve
    rw [hwidens.fits type hresolve]
  · exact hresolve

/-- Only an application to the arguments of the prototype can be resolved in another way. -/
theorem resolve_iff (hwidens : proto.Widens overloads wide) {name : String}
    {argTypes : List TypeName} (hother : (name, argTypes) ≠ (proto.name, proto.argTypes))
    (type : TypeName) :
    wide.resolve name argTypes = .ok type ↔ overloads.resolve name argTypes = .ok type := by
  have hkey : ¬(name = proto.name ∧ argTypes = proto.argTypes) := by
    rintro ⟨rfl, rfl⟩
    exact hother rfl
  rw [Overloads.resolve_eq_ok_iff, Overloads.resolve_eq_ok_iff, hwidens.grants, if_neg hkey]

/-- What fits in the first table, and does not conflict with the prototype, fits in the second. -/
theorem fits_wide (hwidens : proto.Widens overloads wide) (hcompatible : proto.Compatible other)
    (hfits : other.Fits overloads) : other.Fits wide := by
  intro type htype
  rw [hwidens.grants] at htype
  split at htype
  · rename_i hkey
    rw [← Option.some_inj.1 htype]
    exact (hcompatible hkey.1 hkey.2).symm
  · exact hfits type htype

/-- Another prototype is declared in both tables. -/
theorem step (hwidens : proto.Widens overloads wide) (hcompatible : proto.Compatible other)
    (hknown : other.Grants overloads known) (hwide : other.Grants wide knownWide) :
    proto.Widens known knownWide := by
  refine ⟨hknown.fits hcompatible hwidens.fits, fun name argTypes => ?_⟩
  rw [hwide, hwidens.grants, hknown]
  -- if both prototypes are for these arguments, their return types agree
  split
  · rename_i hother
    split
    · rename_i hproto
      rw [hcompatible (hother.1.symm.trans hproto.1) (hother.2.symm.trans hproto.2)]
    · rfl
  · rfl

end Widens

end Prototype

/-! ## Declarations -/

namespace Decl

theorem Registered.fits {decl : Decl} {overloads known : Overloads}
    (hregistered : decl.Registered overloads known) : decl.proto.Fits overloads := by
  intro type htype
  cases hregistered with
  | there hreturn => exact Option.some_inj.1 (htype.symm.trans hreturn)
  | added hfresh =>
    have hnone := htype.symm.trans hfresh
    cases hnone

theorem Registered.grants {decl : Decl} {overloads known : Overloads}
    (hregistered : decl.Registered overloads known) : decl.proto.Grants overloads known := by
  intro name argTypes
  cases hregistered with
  | there hreturn =>
    split
    · rename_i hkey
      rw [hkey.1, hkey.2]
      exact hreturn
    · rfl
  | added hfresh => exact Overloads.returnType?_add_eq hfresh name argTypes

/-- With what is known in its place, the rest of an annotation that succeeds can go on with more. -/
theorem annotateReady_of_widens {proto : Prototype} {decl : Decl} {known wide : Annotator}
    {events events' : List Event} (hscope : wide.scope = known.scope)
    (hwidens : proto.Widens known.overloads wide.overloads)
    (hresult : (decl.annotateReady known events).result = .ok ()) :
    (decl.annotateReady wide events').result = .ok () ∧
      (decl.annotateReady wide events').node = (decl.annotateReady known events).node := by
  obtain ⟨own, _ | body⟩ := decl
  · exact ⟨rfl, rfl⟩
  · have hmore : (within known own).KnowsMore (within wide own) :=
      ⟨hscope, rfl, hwidens.resolve⟩
    obtain ⟨hbody, hnode, -⟩ := body.annotate_ok_mono hmore hresult
    exact ⟨hbody, congrArg (fun body => Decl.mk own (some body)) hnode⟩

/-- A declaration that checks also checks with the wider table, and leaves a wider table. -/
theorem annotate_of_widens {proto : Prototype} {decl : Decl} {annotator wide : Annotator}
    (hwidens : proto.Widens annotator.overloads wide.overloads)
    (hcompatible : proto.Compatible decl.proto)
    (hresult : (decl.annotate annotator).result = .ok ()) :
    (decl.annotate wide).result = .ok () ∧
      (decl.annotate wide).node = (decl.annotate annotator).node ∧
      proto.Widens (decl.annotate annotator).annotator.overloads
        (decl.annotate wide).annotator.overloads := by
  rcases decl.annotate_outcomes annotator with ⟨_, _, -, hannotate⟩ |
    ⟨known, _, hopens, hannotate⟩ <;> rw [hannotate] at hresult ⊢
  · cases hresult
  · have hfits := hwidens.fits_wide hcompatible hopens.registered.fits
    obtain ⟨knownWide, _, hopensWide, hannotateWide⟩ := decl.exists_opens hopens.params hfits
    have hstep : proto.Widens known.overloads knownWide.overloads :=
      hwidens.step hcompatible hopens.registered.grants hopensWide.registered.grants
    have hscope : knownWide.scope = known.scope := hopensWide.scope.trans hopens.scope.symm
    rw [hannotateWide, overloads_annotateReady, overloads_annotateReady]
    obtain ⟨hready, hnode⟩ := annotateReady_of_widens hscope hstep hresult
    exact ⟨hready, hnode, hstep⟩

theorem annotateAll_of_widens {proto : Prototype} {decls : List Decl} {annotator wide : Annotator}
    (hwidens : proto.Widens annotator.overloads wide.overloads)
    (hcompatible : ∀ decl ∈ decls, proto.Compatible decl.proto)
    (hresult : (annotateAll annotator decls).result = .ok ()) :
    (annotateAll wide decls).result = .ok () ∧
      (annotateAll wide decls).node = (annotateAll annotator decls).node ∧
      proto.Widens (annotateAll annotator decls).annotator.overloads
        (annotateAll wide decls).annotator.overloads := by
  induction decls generalizing annotator wide with
  | nil => exact ⟨rfl, rfl, hwidens⟩
  | cons decl decls ih =>
    rw [List.forall_mem_cons] at hcompatible
    obtain ⟨hdecl, hdecls⟩ := annotateAll_cons_ok_iff.1 hresult
    obtain ⟨hdeclWide, hnode, hstep⟩ := annotate_of_widens hwidens hcompatible.1 hdecl
    obtain ⟨hdeclsWide, hnodes, hleft⟩ := ih hstep hcompatible.2 hdecls
    refine ⟨annotateAll_cons_ok_iff.2 ⟨hdeclWide, hdeclsWide⟩, ?_, ?_⟩
    · rw [annotateAll_cons_of_ok decls hdecl, annotateAll_cons_of_ok decls hdeclWide, hnode, hnodes]
    · rw [annotateAll_cons_of_ok decls hdecl, annotateAll_cons_of_ok decls hdeclWide]
      exact hleft

/-! ## Insertion -/

/-- The external declaration itself: it widens the table. -/
theorem annotate_external {proto : Prototype} (hdistinct : (proto.params.map Param.name).Nodup)
    {annotator : Annotator} (hfits : proto.Fits annotator.overloads) :
    (annotate annotator ⟨proto, none⟩).result = .ok () ∧
      (annotate annotator ⟨proto, none⟩).node = ⟨proto, none⟩ ∧
      proto.Widens annotator.overloads
        (annotate annotator ⟨proto, none⟩).annotator.overloads := by
  have hparams := (checkParams_eq_ok_iff ⟨proto, none⟩).2 hdistinct
  obtain ⟨known, events, hopens, hannotate⟩ := exists_opens ⟨proto, none⟩ hparams hfits
  rw [hannotate]
  exact ⟨rfl, rfl, hfits, hopens.registered.grants⟩

theorem fits_annotate {proto : Prototype} {decl : Decl} (hcompatible : proto.Compatible decl.proto)
    {annotator : Annotator} (hfits : proto.Fits annotator.overloads) :
    proto.Fits (decl.annotate annotator).annotator.overloads := by
  rcases decl.annotate_outcomes annotator with ⟨_, _, -, hannotate⟩ |
    ⟨known, _, hopens, hannotate⟩ <;> rw [hannotate]
  · exact hfits
  · rw [overloads_annotateReady]
    exact hopens.registered.grants.fits hcompatible hfits

/-- The declarations before the position are annotated as they were; the ones after it come to a
wider table. -/
theorem annotateAll_insertIdx {proto : Prototype}
    (hdistinct : (proto.params.map Param.name).Nodup) {decls : List Decl} {position : Nat}
    (hposition : position ≤ decls.length) {annotator : Annotator}
    (hfits : proto.Fits annotator.overloads)
    (hcompatible : ∀ decl ∈ decls, proto.Compatible decl.proto)
    (hresult : (annotateAll annotator decls).result = .ok ()) :
    (annotateAll annotator (decls.insertIdx position ⟨proto, none⟩)).result = .ok () ∧
      (annotateAll annotator (decls.insertIdx position ⟨proto, none⟩)).node =
        (annotateAll annotator decls).node.insertIdx position ⟨proto, none⟩ ∧
      proto.Widens (annotateAll annotator decls).annotator.overloads
        (annotateAll annotator (decls.insertIdx position ⟨proto, none⟩)).annotator.overloads := by
  induction position generalizing decls annotator with
  | zero =>
    rw [List.insertIdx_zero, List.insertIdx_zero]
    obtain ⟨hthis, hnode, hwidens⟩ := annotate_external hdistinct hfits
    obtain ⟨hdecls, hnodes, hleft⟩ := annotateAll_of_widens hwidens hcompatible hresult
    refine ⟨annotateAll_cons_ok_iff.2 ⟨hthis, hdecls⟩, ?_, ?_⟩
    · rw [annotateAll_cons_of_ok decls hthis, hnode, hnodes]
    · rw [annotateAll_cons_of_ok decls hthis]
      exact hleft
  | succ position ih =>
    cases decls with
    | nil => exact absurd hposition (Nat.not_succ_le_zero position)
    | cons decl decls =>
      rw [List.forall_mem_cons] at hcompatible
      obtain ⟨hdecl, hdecls⟩ := annotateAll_cons_ok_iff.1 hresult
      have hstep := fits_annotate hcompatible.1 hfits
      obtain ⟨hinserted, hnodes, hleft⟩ :=
        ih (Nat.le_of_succ_le_succ hposition) hstep hcompatible.2 hdecls
      rw [List.insertIdx_succ_cons]
      refine ⟨annotateAll_cons_ok_iff.2 ⟨hdecl, hinserted⟩, ?_, ?_⟩
      · rw [annotateAll_cons_of_ok _ hdecl, annotateAll_cons_of_ok _ hdecl, hnodes,
          List.insertIdx_succ_cons]
      · rw [annotateAll_cons_of_ok _ hdecl, annotateAll_cons_of_ok _ hdecl]
        exact hleft

end Decl

namespace Module

/-- The module with a declaration before the one at the position. -/
def insert (module : Module) (position : Nat) (decl : Decl) : Module :=
  { module with decls := module.decls.insertIdx position decl }

/-- An external declaration with distinct parameter names can be inserted into a module that
checks, at any place, unless the module or the language has another return type for its
arguments.  The module with it checks, all other declarations are tagged as they were, and only
an application to the arguments of the new declaration can be resolved in another way
afterwards. -/
theorem insertion_undisturbed {module : Module} (proto : Prototype) (position : Nat)
    (hchecks : (module.annotate .initial).result = .ok ())
    (hposition : position ≤ module.decls.length)
    (hdistinct : (proto.params.map Param.name).Nodup)
    (hdecls : ∀ decl ∈ module.decls, decl.proto.name = proto.name →
      decl.proto.argTypes = proto.argTypes → decl.proto.returnType = proto.returnType)
    (hbuiltin : ∀ signature ∈ Overloads.builtin.named proto.name,
      signature.argTypes = proto.argTypes → signature.returnType = proto.returnType) :
    let before := module.annotate .initial
    let after := (module.insert position ⟨proto, none⟩).annotate .initial
    after.result = .ok () ∧ after.node = before.node.insert position ⟨proto, none⟩ ∧
    ∀ name argTypes, (name, argTypes) ≠ (proto.name, proto.argTypes) → ∀ type,
      after.annotator.resolve name argTypes = .ok type ↔
        before.annotator.resolve name argTypes = .ok type := by
  have hfits : proto.Fits Annotator.initial.overloads := by
    intro type htype
    exact hbuiltin ⟨proto.argTypes, type⟩ (Overloads.mem_named_of_returnType? htype) rfl
  obtain ⟨hinserted, hnodes, hwidens⟩ :=
    Decl.annotateAll_insertIdx hdistinct hposition hfits hdecls hchecks
  refine ⟨hinserted, congrArg (Module.mk module.name) hnodes, ?_⟩
  intro name argTypes hother type
  exact hwidens.resolve_iff hother type

/-- A function that calls itself and an external one. -/
def recursiveModule : Module :=
  ⟨"m", [⟨⟨"half", [⟨"x", intType⟩], intType⟩, none⟩,
    ⟨⟨"log", [⟨"x", intType⟩], intType⟩, some (.block [.ret (.binary "+" (.int 1 none)
      (.call "log" [.call "half" [.var "x" none] none] none) none)])⟩]⟩

/-- The function may be announced before it is defined, and get another overload. -/
theorem insertion_undisturbed_recursive :
    let announced := recursiveModule.insert 0 ⟨⟨"log", [⟨"n", intType⟩], intType⟩, none⟩
    let overloaded := recursiveModule.insert 1 ⟨⟨"log", [⟨"x", floatType⟩], floatType⟩, none⟩
    (announced.annotate .initial).result = .ok () ∧
      (overloaded.annotate .initial).result = .ok () ∧
      (overloaded.annotate .initial).annotator.resolve "log" [intType] = .ok intType := by
  have hchecks : (recursiveModule.annotate .initial).result = .ok () := rfl
  have hannounced := insertion_undisturbed ⟨"log", [⟨"n", intType⟩], intType⟩ 0 hchecks
    (Nat.zero_le 2) (by decide) (by decide) (by decide +kernel)
  have hoverloaded := insertion_undisturbed ⟨"log", [⟨"x", floatType⟩], floatType⟩ 1 hchecks
    (Nat.le_succ 1) (by decide) (by decide) (by decide +kernel)
  exact ⟨hannounced.1, hoverloaded.1,
    (hoverloaded.2.2 "log" [intType] (by decide) intType).2 rfl⟩

end Module

end Frontend
