import Frontend.Proofs.Deriving.Module
import Frontend.Proofs.Reading.Module

/-!
# The parser accepts exactly its grammar

The two directions put together.  `parse_eq_ok_iff` gives the answer with the tree; the
second theorem is about acceptance alone and about the error of a source that is not
accepted.
-/

namespace Frontend.Parser

open Grammar

/-- A source is parsed to the module that its tokens derive. -/
theorem parse_eq_ok_iff {name source : String} {module : Module} :
    (Module.parse name source).1 = .ok module ↔
      module.name = name ∧ ∃ top, top ≤ maxNesting ∧
        Declarations top (Token.tokenize source).dropLast module.decls := by
  constructor
  · intro hparse
    have hderived := declarations_of_parse name source
    rw [hparse] at hderived
    exact hderived
  · rintro ⟨rfl, top, htop, hdecls⟩
    rw [parse_of_declarations hdecls, if_pos htop]

/-- A source is accepted exactly if its tokens are derivable with no index above the limit, and
every other source is refused with a syntax error. -/
theorem parse_accepts_iff_derivable (name source : String) :
    ((∃ module, (Module.parse name source).1 = .ok module) ↔
      Derivable maxNesting (Token.tokenize source).dropLast) ∧
    (¬Derivable maxNesting (Token.tokenize source).dropLast →
      ∃ error, (Module.parse name source).1 = .error error ∧ error.category = .malformed) := by
  have haccepts : (∃ module, (Module.parse name source).1 = .ok module) ↔
      Derivable maxNesting (Token.tokenize source).dropLast := by
    constructor
    · rintro ⟨module, hparse⟩
      obtain ⟨-, top, htop, hdecls⟩ := parse_eq_ok_iff.1 hparse
      exact ⟨top, module.decls, htop, hdecls⟩
    · rintro ⟨top, decls, htop, hdecls⟩
      exact ⟨⟨name, decls⟩, parse_eq_ok_iff.2 ⟨rfl, top, htop, hdecls⟩⟩
  refine ⟨haccepts, fun hnot => ?_⟩
  have hderived := declarations_of_parse name source
  cases hparse : (Module.parse name source).1 with
  | ok module => exact absurd (haccepts.1 ⟨module, hparse⟩) hnot
  | error error =>
    rw [hparse] at hderived
    exact ⟨error, rfl, hderived⟩

end Frontend.Parser
