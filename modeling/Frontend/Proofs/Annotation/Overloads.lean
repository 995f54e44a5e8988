import Frontend.Proofs.Annotation.Table
import Frontend.Proofs.TypeSystem
import Frontend.Proofs.Words
import Frontend.Token.Basic

/-!
# Overloads and prototypes

What the table of overloads says about the prototypes that were declared.  `Represents` is the
invariant: the table is well formed, and its overloads are those of the operators and of the
prototypes.  It holds at the start (`represents_builtin`), and one more prototype keeps it if
its overload is there already or can be added (`snoc_of_mem`, `snoc_of_none`).

Operators and identifiers do not mix, so an application of an operator is decided by the
operators alone and a call by the prototypes alone.
-/

namespace Frontend

/-! ## Operators -/

namespace Overloads

theorem operatorType_of_builtin : ∀ entry ∈ builtin, ∀ signature ∈ entry.2,
    OperatorType entry.1 signature.argTypes signature.returnType := by
  intro entry hentry signature hsignature
  have harithmetic {operator : String} (hoperator : operator ∈ ["+", "-", "*", "/"])
      (hmem : signature ∈ [intType, floatType].map fun type => ⟨[type, type], type⟩) :
      OperatorType operator signature.argTypes signature.returnType := by
    obtain ⟨type, htype, rfl⟩ := List.mem_map.1 hmem
    exact .arithmetic hoperator htype
  rcases List.mem_append.1 hentry with hentry | hentry
  · simp only [List.mem_cons, List.not_mem_nil, or_false] at hentry
    rcases hentry with rfl | rfl | rfl | rfl | rfl
    · exact harithmetic (by decide) hsignature
    · rcases List.mem_append.1 hsignature with hsignature | hsignature
      · exact harithmetic (by decide) hsignature
      · obtain ⟨type, htype, rfl⟩ := List.mem_map.1 hsignature
        exact .negation htype
    · exact harithmetic (by decide) hsignature
    · exact harithmetic (by decide) hsignature
    · rw [List.mem_singleton.1 hsignature]
      exact .remainder
  · obtain ⟨operator, hoperator, rfl⟩ := List.mem_map.1 hentry
    obtain ⟨type, htype, rfl⟩ := List.mem_map.1 hsignature
    exact .comparison hoperator htype

theorem mem_builtin_iff {operator : String} {argTypes : List TypeName} {type : TypeName} :
    ⟨argTypes, type⟩ ∈ builtin.named operator ↔ OperatorType operator argTypes type := by
  constructor
  · intro hmem
    obtain ⟨signatures, hentry, hmem⟩ := mem_named_iff.1 hmem
    exact operatorType_of_builtin _ (mem_of_lookup hentry) _ hmem
  · have harithmetic : ∀ operator ∈ ["+", "-", "*", "/"], ∀ type ∈ [intType, floatType],
        ⟨[type, type], type⟩ ∈ builtin.named operator := by decide +kernel
    have hcomparison : ∀ operator ∈ ["==", "!=", "<", ">", "<=", ">="],
        ∀ type ∈ [intType, floatType, boolType],
          ⟨[type, type], boolType⟩ ∈ builtin.named operator := by decide +kernel
    have hnegation : ∀ type ∈ [intType, floatType], ⟨[type], type⟩ ∈ builtin.named "-" := by
      decide +kernel
    rintro (⟨hoperator, htype⟩ | ⟨⟩ | ⟨hoperator, htype⟩ | ⟨htype⟩)
    · exact harithmetic operator hoperator type htype
    · decide +kernel
    · exact hcomparison operator hoperator _ htype
    · exact hnegation type htype

theorem operatorType_unique {operator : String} {argTypes : List TypeName} {type type' : TypeName}
    (htype : OperatorType operator argTypes type) (htype' : OperatorType operator argTypes type') :
    type = type' := by
  rw [← mem_builtin_iff, ← builtin_wellFormed.returnType?_eq_some_iff] at htype htype'
  exact Option.some_inj.1 (htype.symm.trans htype')

/-- The names that have an entry at the start are the operators. -/
theorem lookup_builtin_isSome_iff {name : String} :
    (∃ signatures, builtin.lookup name = some signatures) ↔ name ∈ Operator.all := by
  constructor
  · rintro ⟨signatures, hentry⟩
    have hall : ∀ entry ∈ builtin, entry.1 ∈ Operator.all := by decide +kernel
    exact hall _ (mem_of_lookup hentry)
  · intro hname
    have hall : ∀ operator ∈ Operator.all, (builtin.lookup operator).isSome = true := by
      decide +kernel
    exact Option.isSome_iff_exists.1 (hall name hname)

theorem mem_all_of_builtin {name : String} {signature : Signature}
    (hmem : signature ∈ builtin.named name) : name ∈ Operator.all := by
  obtain ⟨signatures, hentry, -⟩ := mem_named_iff.1 hmem
  exact lookup_builtin_isSome_iff.1 ⟨signatures, hentry⟩

end Overloads

theorem not_identifier_of_operator {operator : String} (hoperator : operator ∈ Operator.all) :
    Token.isIdentifier operator ≠ true := by
  have hall : ∀ operator ∈ Operator.all, Token.isIdentifier operator ≠ true := by decide +kernel
  exact hall operator hoperator

/-! ## The invariant -/

/-- The prototype declares the overload under the name. -/
def Prototype.Declares (proto : Prototype) (name : String) (signature : Signature) : Prop :=
  proto.name = name ∧ proto.signature = signature

/-- The overloads are those of the operators and of the prototypes. -/
structure Represents (overloads : Overloads) (protos : List Prototype) : Prop where
  wellFormed : overloads.WellFormed
  mem_iff : ∀ name signature, signature ∈ overloads.named name ↔
    signature ∈ Overloads.builtin.named name ∨ ∃ proto ∈ protos, proto.Declares name signature
  identifier : ∀ proto ∈ protos, Token.isIdentifier proto.name = true

theorem represents_builtin : Represents .builtin [] :=
  ⟨Overloads.builtin_wellFormed, by simp, by simp⟩

namespace Represents

variable {overloads : Overloads} {protos : List Prototype}

/-- An operator is applied as the operators of the language are. -/
theorem resolve_operator_iff (hrep : Represents overloads protos) {operator : String}
    (hoperator : operator ∈ Operator.all) {argTypes : List TypeName} {type : TypeName} :
    overloads.resolve operator argTypes = .ok type ↔ OperatorType operator argTypes type := by
  rw [Overloads.resolve_eq_ok_iff, hrep.wellFormed.returnType?_eq_some_iff, hrep.mem_iff,
    Overloads.mem_builtin_iff]
  refine ⟨?_, .inl⟩
  rintro (htype | ⟨proto, hproto, hname, -⟩)
  · exact htype
  · exact absurd (hname ▸ hrep.identifier proto hproto) (not_identifier_of_operator hoperator)

/-- A function is called as the prototypes say. -/
theorem resolve_call_iff (hrep : Represents overloads protos) {callee : String}
    (hcallee : Token.isIdentifier callee = true) {argTypes : List TypeName} {type : TypeName} :
    overloads.resolve callee argTypes = .ok type ↔
      ∃ proto ∈ protos, proto.name = callee ∧ proto.argTypes = argTypes ∧
        proto.returnType = type := by
  rw [Overloads.resolve_eq_ok_iff, hrep.wellFormed.returnType?_eq_some_iff, hrep.mem_iff]
  constructor
  · rintro (hmem | ⟨proto, hproto, hname, hsignature⟩)
    · exact absurd hcallee (not_identifier_of_operator (Overloads.mem_all_of_builtin hmem))
    · cases hsignature
      exact ⟨proto, hproto, hname, rfl, rfl⟩
  · rintro ⟨proto, hproto, hname, rfl, rfl⟩
    exact .inr ⟨proto, hproto, hname, rfl⟩

/-- A prototype resolves to its own return type. -/
theorem returnType?_of_mem (hrep : Represents overloads protos) {proto : Prototype}
    (hproto : proto ∈ protos) :
    overloads.returnType? proto.name proto.argTypes = some proto.returnType :=
  hrep.wellFormed.returnType?_eq_some_iff.2
    ((hrep.mem_iff _ _).2 (.inr ⟨proto, hproto, rfl, rfl⟩))

/-- Name and argument types of a prototype determine its return type. -/
theorem consistent (hrep : Represents overloads protos) {proto proto' : Prototype}
    (hproto : proto ∈ protos) (hproto' : proto' ∈ protos) (hname : proto.name = proto'.name)
    (hargs : proto.argTypes = proto'.argTypes) : proto.returnType = proto'.returnType := by
  have hreturn := hrep.returnType?_of_mem hproto
  rw [hname, hargs, hrep.returnType?_of_mem hproto'] at hreturn
  exact (Option.some_inj.1 hreturn).symm

/-- One more prototype, which has an overload already. -/
theorem snoc_of_mem (hrep : Represents overloads protos) {proto : Prototype}
    (hidentifier : Token.isIdentifier proto.name = true)
    (hmem : proto.signature ∈ overloads.named proto.name) :
    Represents overloads (protos ++ [proto]) := by
  refine ⟨hrep.wellFormed, fun name signature => ?_, ?_⟩
  · rw [hrep.mem_iff]
    constructor
    · rintro (hbuiltin | ⟨earlier, hearlier, hdeclares⟩)
      · exact .inl hbuiltin
      · exact .inr ⟨earlier, List.mem_append_left _ hearlier, hdeclares⟩
    · rintro (hbuiltin | ⟨other, hother, rfl, rfl⟩)
      · exact .inl hbuiltin
      · rcases List.mem_append.1 hother with hearlier | hthis
        · exact .inr ⟨other, hearlier, rfl, rfl⟩
        · rw [List.mem_singleton.1 hthis, ← hrep.mem_iff]
          exact hmem
  · rw [List.forall_mem_append]
    exact ⟨hrep.identifier, by simpa using hidentifier⟩

/-- One more prototype, for whose arguments there was no overload of its name. -/
theorem snoc_of_none (hrep : Represents overloads protos) {proto : Prototype}
    (hidentifier : Token.isIdentifier proto.name = true)
    (hnone : overloads.returnType? proto.name proto.argTypes = none) :
    Represents (overloads.add proto.name proto.signature) (protos ++ [proto]) := by
  refine ⟨hrep.wellFormed.add hnone, fun name signature => ?_, ?_⟩
  · rw [Overloads.mem_named_add, hrep.mem_iff]
    constructor
    · rintro ((hbuiltin | ⟨earlier, hearlier, hdeclares⟩) | ⟨rfl, rfl⟩)
      · exact .inl hbuiltin
      · exact .inr ⟨earlier, List.mem_append_left _ hearlier, hdeclares⟩
      · exact .inr ⟨proto, List.mem_append_right _ (List.mem_singleton_self _), rfl, rfl⟩
    · rintro (hbuiltin | ⟨other, hother, rfl, rfl⟩)
      · exact .inl (.inl hbuiltin)
      · rcases List.mem_append.1 hother with hearlier | hthis
        · exact .inl (.inr ⟨other, hearlier, rfl, rfl⟩)
        · rw [List.mem_singleton.1 hthis]
          exact .inr ⟨rfl, rfl⟩
  · rw [List.forall_mem_append]
    exact ⟨hrep.identifier, by simpa using hidentifier⟩

end Represents

end Frontend
