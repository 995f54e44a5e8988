import Frontend.Typing.Annotator
import Mathlib.Data.List.Nodup

/-!
# The table of overloads

How the table changes, seen through its look-up.

* The operations of the table.  `lookup_set`, `lookup_enter` and `lookup_add` say what each of them
  leaves under every name.
* Registration.  `register_cases` says all that a registration can do: find the overload in
  place, find another in its place, or add it.  Only the last changes the annotator.
* Growth.  `Extends` relates a table to what registrations make of it.  Whatever is in the table
  stays there, in its place, so an application that resolves goes on resolving to the same type.
-/

namespace Frontend

namespace Overloads

/-! ## The operations of the table -/

section Operations

variable (overloads : Overloads) (name : String)

theorem lookup_cons (signatures : List Signature) (other : String) :
    List.lookup other ((name, signatures) :: overloads) =
      if other = name then some signatures else overloads.lookup other := by
  rw [List.lookup_cons]
  by_cases hother : other = name
  · rw [if_pos hother, beq_iff_eq.2 hother]
  · rw [if_neg hother, beq_false_of_ne hother]

theorem lookup_set (signatures : List Signature) (other : String) :
    (overloads.set name signatures).lookup other =
      if other = name then some signatures else overloads.lookup other := by
  induction overloads with
  | nil => exact lookup_cons [] name signatures other
  | cons entry entries ih =>
    obtain ⟨first, others⟩ := entry
    rw [set]
    by_cases hfirst : first = name
    · rw [if_pos (beq_iff_eq.2 hfirst), lookup_cons, lookup_cons, hfirst]
      split <;> rfl
    · rw [if_neg (mt beq_iff_eq.1 hfirst), lookup_cons, lookup_cons, ih]
      by_cases hother : other = first
      · rw [if_pos hother, if_pos hother, if_neg (hother ▸ hfirst)]
      · rw [if_neg hother, if_neg hother]

theorem set_set (signatures later : List Signature) :
    (overloads.set name signatures).set name later = overloads.set name later := by
  induction overloads with
  | nil => simp [set]
  | cons entry entries ih =>
    by_cases hfirst : entry.1 = name
    · simp [set, hfirst]
    · simp [set, hfirst, ih]

theorem lookup_enter (other : String) :
    (overloads.enter name).lookup other =
      if other = name then some (overloads.named name) else overloads.lookup other := by
  unfold enter named
  split
  · rename_i signatures hentry
    by_cases hother : other = name <;> simp [hother, hentry]
  · rename_i hentry
    rw [lookup_set, hentry]
    rfl

theorem named_enter (other : String) :
    (overloads.enter name).named other = overloads.named other := by
  rw [named, lookup_enter]
  by_cases hother : other = name
  · rw [if_pos hother, hother, Option.getD_some]
  · rw [if_neg hother, named]

theorem lookup_add (signature : Signature) (other : String) :
    (overloads.add name signature).lookup other =
      if other = name then some (overloads.named name ++ [signature])
      else overloads.lookup other :=
  lookup_set overloads name _ other

theorem add_enter (signature : Signature) :
    (overloads.enter name).add name signature = overloads.add name signature := by
  rw [add, named_enter, add, enter]
  split
  · rfl
  · exact set_set overloads name _ _

end Operations

theorem enter_eq_self {overloads : Overloads} {name : String} {signatures : List Signature}
    (hentry : overloads.lookup name = some signatures) : overloads.enter name = overloads := by
  rw [enter, hentry]

/-! ## What resolves -/

section Resolving

variable {overloads : Overloads} {name : String} {argTypes : List TypeName} {type : TypeName}

theorem lookup_of_returnType? (hreturn : overloads.returnType? name argTypes = some type) :
    ∃ signatures, overloads.lookup name = some signatures := by
  cases hentry : overloads.lookup name with
  | some signatures => exact ⟨signatures, rfl⟩
  | none =>
    rw [returnType?, named, hentry] at hreturn
    cases hreturn

/-- An application resolves to the return type of the overload for its arguments. -/
theorem resolve_eq_ok_iff :
    overloads.resolve name argTypes = .ok type ↔
      overloads.returnType? name argTypes = some type := by
  unfold resolve
  split
  · rename_i hentry
    have hnone : overloads.returnType? name argTypes = none := by
      rw [returnType?, named, hentry]
      rfl
    simp [hnone]
  · split
    · rename_i found hfound
      simp [hfound]
    · rename_i hnone
      simp [hnone]

/-- An application fails for want of a declaration exactly if the name has no entry. -/
theorem resolve_eq_functionNotDeclared_iff {function : String} :
    overloads.resolve name argTypes = .error (.functionNotDeclared function) ↔
      function = name ∧ overloads.lookup name = none := by
  unfold resolve
  cases hentry : overloads.lookup name with
  | none => simp [eq_comm]
  | some signatures =>
    cases overloads.returnType? name argTypes <;> simp

end Resolving

/-- An overload that has been added is found. -/
theorem returnType?_add {overloads : Overloads} {name : String} {signature : Signature}
    (hfresh : overloads.returnType? name signature.argTypes = none) :
    (overloads.add name signature).returnType? name signature.argTypes =
      some signature.returnType := by
  have hnone :
      (overloads.named name).find? (fun other => other.accepts signature.argTypes) = none :=
    Option.map_eq_none_iff.1 hfresh
  have haccepts : signature.accepts signature.argTypes = true := beq_self_eq_true _
  rw [returnType?, named, lookup_add, if_pos rfl, Option.getD_some, List.find?_append, hnone,
    Option.none_or, List.find?_singleton, if_pos haccepts, Option.map_some]

end Overloads

/-! ## Registration -/

/-- All that a registration can do. -/
theorem Annotator.register_cases (annotator : Annotator) (name : String) (signature : Signature) :
    (annotator.overloads.returnType? name signature.argTypes = some signature.returnType ∧
      annotator.register name signature = (annotator, [], .ok ())) ∨
    (∃ existing, existing ≠ signature.returnType ∧
      annotator.overloads.returnType? name signature.argTypes = some existing ∧
      annotator.register name signature =
        (annotator, [], .error (.conflictingOverload name (TypeName.list signature.argTypes) existing
          signature.returnType))) ∨
    (annotator.overloads.returnType? name signature.argTypes = none ∧
      annotator.register name signature =
        ({ annotator with overloads := annotator.overloads.add name signature },
          [.registered name signature], .ok ())) := by
  have hreturn : (annotator.overloads.enter name).returnType? name signature.argTypes =
      annotator.overloads.returnType? name signature.argTypes := by
    rw [Overloads.returnType?, Overloads.named_enter, Overloads.returnType?]
  unfold register
  dsimp only
  rw [hreturn, Overloads.add_enter]
  cases hexisting : annotator.overloads.returnType? name signature.argTypes with
  | none => exact .inr (.inr ⟨rfl, rfl⟩)
  | some existing =>
    -- the overload was found, so the name had its entry before
    obtain ⟨signatures, hentry⟩ := Overloads.lookup_of_returnType? hexisting
    rw [Overloads.enter_eq_self hentry]
    by_cases hsame : existing = signature.returnType
    · exact .inl ⟨congrArg some hsame, if_pos (beq_iff_eq.2 hsame)⟩
    · exact .inr (.inl ⟨existing, hsame, rfl, if_neg (mt beq_iff_eq.1 hsame)⟩)

namespace Annotator

variable {annotator : Annotator} {name : String} {signature : Signature}

theorem register_eq_ok_iff :
    (annotator.register name signature).2.2 = .ok () ↔
      ∀ existing, annotator.overloads.returnType? name signature.argTypes = some existing →
        existing = signature.returnType := by
  rcases annotator.register_cases name signature with ⟨hreturn, hregister⟩ |
    ⟨existing, hother, hreturn, hregister⟩ | ⟨hnone, hregister⟩ <;> rw [hregister]
  · simp [hreturn]
  · simp [hreturn, hother]
  · simp [hnone]

/-- What has been registered is found. -/
theorem returnType?_register (hresult : (annotator.register name signature).2.2 = .ok ()) :
    (annotator.register name signature).1.overloads.returnType? name signature.argTypes =
      some signature.returnType := by
  rcases annotator.register_cases name signature with ⟨hreturn, hregister⟩ |
    ⟨existing, hother, hreturn, hregister⟩ | ⟨hfresh, hregister⟩
  · rw [hregister]
    exact hreturn
  · exact absurd (register_eq_ok_iff.1 hresult existing hreturn) hother
  · rw [hregister]
    exact Overloads.returnType?_add hfresh

/-- A name gets its entry by a registration that succeeds. -/
theorem lookup_register {other : String} {signatures : List Signature}
    (hentry : (annotator.register name signature).1.overloads.lookup other = some signatures) :
    (∃ before, annotator.overloads.lookup other = some before) ∨
      other = name ∧ (annotator.register name signature).2.2 = .ok () := by
  rcases annotator.register_cases name signature with ⟨-, hregister⟩ | ⟨_, -, -, hregister⟩ |
    ⟨-, hregister⟩ <;> rw [hregister] at hentry ⊢
  · exact .inl ⟨signatures, hentry⟩
  · exact .inl ⟨signatures, hentry⟩
  · dsimp only at hentry
    rw [Overloads.lookup_add] at hentry
    split at hentry
    · exact .inr ⟨‹_›, rfl⟩
    · exact .inl ⟨signatures, hentry⟩

end Annotator

/-! ## Growth -/

namespace Overloads

/-- Later tables: overloads were added one after the other, each for arguments for which there was
none of its name. -/
inductive Extends (overloads : Overloads) : Overloads → Prop
  | refl : Extends overloads overloads
  | add {later : Overloads} {name : String} {signature : Signature}
      (hextends : Extends overloads later)
      (hfresh : later.returnType? name signature.argTypes = none) :
      Extends overloads (later.add name signature)

namespace Extends

variable {overloads later : Overloads}

theorem trans {latest : Overloads} (hfirst : Extends overloads later)
    (hsecond : Extends later latest) : Extends overloads latest := by
  induction hsecond with
  | refl => exact hfirst
  | add _ hfresh ih => exact .add ih hfresh

/-- Every entry is still there, with the same overloads first. -/
theorem lookup (hextends : Extends overloads later) {name : String} {signatures : List Signature}
    (hentry : overloads.lookup name = some signatures) :
    ∃ current, later.lookup name = some current ∧ signatures <+: current := by
  induction hextends with
  | refl => exact ⟨signatures, hentry, List.prefix_refl _⟩
  | @add later other signature _ _ ih =>
    obtain ⟨current, hcurrent, hprefix⟩ := ih
    rw [lookup_add]
    by_cases hname : name = other
    · subst hname
      refine ⟨_, if_pos rfl, ?_⟩
      rw [named, hcurrent]
      exact hprefix.trans (List.prefix_append current [signature])
    · exact ⟨current, (if_neg hname).trans hcurrent, hprefix⟩

theorem returnType? (hextends : Extends overloads later) {name : String} {argTypes : List TypeName}
    {type : TypeName} (hreturn : overloads.returnType? name argTypes = some type) :
    later.returnType? name argTypes = some type := by
  obtain ⟨signatures, hentry⟩ := lookup_of_returnType? hreturn
  obtain ⟨current, hcurrent, added, rfl⟩ := hextends.lookup hentry
  rw [Overloads.returnType?, named, hentry, Option.getD_some] at hreturn
  obtain ⟨signature, hfind, htype⟩ := Option.map_eq_some_iff.1 hreturn
  rw [Overloads.returnType?, named, hcurrent, Option.getD_some, List.find?_append, hfind,
    Option.some_or, Option.map_some, htype]

/-- An application that resolves goes on resolving to the same type. -/
theorem resolve (hextends : Extends overloads later) {name : String} {argTypes : List TypeName}
    {type : TypeName} (hresolve : overloads.resolve name argTypes = .ok type) :
    later.resolve name argTypes = .ok type :=
  resolve_eq_ok_iff.2 (hextends.returnType? (resolve_eq_ok_iff.1 hresolve))

end Extends

end Overloads

theorem Annotator.extends_register (annotator : Annotator) (name : String) (signature : Signature) :
    annotator.overloads.Extends (annotator.register name signature).1.overloads := by
  rcases annotator.register_cases name signature with ⟨-, hregister⟩ | ⟨_, -, -, hregister⟩ |
    ⟨hfresh, hregister⟩ <;> rw [hregister]
  · exact .refl
  · exact .refl
  · exact .add .refl hfresh

/-! ## Well-formed tables -/

namespace Overloads

/-- No entry is empty, and the overloads of one name differ in their arguments. -/
structure WellFormed (overloads : Overloads) : Prop where
  ne_nil : ∀ name signatures, overloads.lookup name = some signatures → signatures ≠ []
  distinct : ∀ name signatures, overloads.lookup name = some signatures →
    (signatures.map Signature.argTypes).Nodup

theorem mem_of_lookup {overloads : Overloads} {name : String} {signatures : List Signature}
    (hentry : overloads.lookup name = some signatures) : (name, signatures) ∈ overloads := by
  obtain ⟨before, after, hsplit, -⟩ := List.lookup_eq_some_iff.1 hentry
  rw [hsplit]
  exact List.mem_append_right before List.mem_cons_self

theorem mem_named_iff {overloads : Overloads} {name : String} {signature : Signature} :
    signature ∈ overloads.named name ↔
      ∃ signatures, overloads.lookup name = some signatures ∧ signature ∈ signatures := by
  unfold named
  cases overloads.lookup name <;> simp

theorem mem_named_add {overloads : Overloads} {name other : String} {signature added : Signature} :
    signature ∈ (overloads.add name added).named other ↔
      signature ∈ overloads.named other ∨ name = other ∧ added = signature := by
  rw [named, lookup_add]
  by_cases hother : other = name
  · simp [hother, eq_comm]
  · simp [hother, Ne.symm hother, named]

theorem mem_named_of_returnType? {overloads : Overloads} {name : String}
    {argTypes : List TypeName} {type : TypeName}
    (hreturn : overloads.returnType? name argTypes = some type) :
    ⟨argTypes, type⟩ ∈ overloads.named name := by
  obtain ⟨signature, hfind, rfl⟩ := Option.map_eq_some_iff.1 hreturn
  have haccepts := List.find?_some hfind
  obtain rfl := beq_iff_eq.1 haccepts
  exact List.mem_of_find?_eq_some hfind

theorem returnType?_eq_none_iff {overloads : Overloads} {name : String} {argTypes : List TypeName} :
    overloads.returnType? name argTypes = none ↔
      argTypes ∉ (overloads.named name).map Signature.argTypes := by
  simp [returnType?, Signature.accepts]

namespace WellFormed

variable {overloads : Overloads}

theorem nodup_named (hwell : overloads.WellFormed) (name : String) :
    ((overloads.named name).map Signature.argTypes).Nodup := by
  unfold named
  cases hentry : overloads.lookup name with
  | none => exact List.nodup_nil
  | some signatures => exact hwell.distinct name signatures hentry

/-- The table gives the return type of the one overload with the arguments. -/
theorem returnType?_eq_some_iff (hwell : overloads.WellFormed) {name : String}
    {argTypes : List TypeName} {type : TypeName} :
    overloads.returnType? name argTypes = some type ↔
      ⟨argTypes, type⟩ ∈ overloads.named name := by
  refine ⟨mem_named_of_returnType?, fun hmem => ?_⟩
  cases hfound : overloads.returnType? name argTypes with
  | none => exact absurd (List.mem_map_of_mem hmem) (returnType?_eq_none_iff.1 hfound)
  | some found =>
    have heq : (⟨argTypes, type⟩ : Signature) = ⟨argTypes, found⟩ :=
      List.inj_on_of_nodup_map (hwell.nodup_named name) hmem (mem_named_of_returnType? hfound) rfl
    cases heq
    rfl

theorem add (hwell : overloads.WellFormed) {name : String} {signature : Signature}
    (hfresh : overloads.returnType? name signature.argTypes = none) :
    (overloads.add name signature).WellFormed := by
  refine ⟨fun other signatures hentry => ?_, fun other signatures hentry => ?_⟩ <;>
    rw [lookup_add] at hentry <;> split at hentry
  · cases hentry
    exact List.append_ne_nil_of_right_ne_nil _ (List.cons_ne_nil signature [])
  · exact hwell.ne_nil other signatures hentry
  · cases hentry
    rw [List.map_append, List.map_singleton, ← List.concat_eq_append]
    exact List.Nodup.concat (returnType?_eq_none_iff.1 hfresh) (hwell.nodup_named name)
  · exact hwell.distinct other signatures hentry

end WellFormed

theorem Extends.wellFormed {overloads later : Overloads} (hextends : Extends overloads later)
    (hwell : overloads.WellFormed) : later.WellFormed := by
  induction hextends with
  | refl => exact hwell
  | add _ hfresh ih => exact ih.add hfresh

theorem builtin_wellFormed : builtin.WellFormed := by
  have hentries : ∀ entry ∈ builtin, entry.2 ≠ [] ∧ (entry.2.map Signature.argTypes).Nodup := by
    decide +kernel
  exact ⟨fun _ _ hentry => (hentries _ (mem_of_lookup hentry)).1,
    fun _ _ hentry => (hentries _ (mem_of_lookup hentry)).2⟩

end Overloads

end Frontend
