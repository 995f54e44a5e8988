import Frontend.Proofs.Deriving.Module

/-!
# Tokens on demand

A parser fetches the tokens of its source one by one, as it moves on.  This module compares
what it has fetched with the tokens of the whole source, which `Token.tokenize` cuts at once.
`State.stream` links the two: at the start it is the list of all tokens, and no run changes it.
-/

namespace Frontend

namespace Parser

theorem stream_ofSource (source : String) :
    (State.ofSource source).stream = Token.tokenize source := by
  have hfetched : (State.ofSource source).fetched = [(State.ofSource source).current] := rfl
  rw [State.stream, hfetched, (State.valid_ofSource source).current_eq, State.tokenize_eq_pending]
  cases (State.ofSource source).pending <;> rfl

/-- Whatever was fetched of a source, only the last token of it can be `eof`. -/
theorem kind_ne_eof_of_mem_dropLast {source : String} {fetched : List Token}
    (hfetched : fetched <+: Token.tokenize source) {token : Token}
    (hmem : token ∈ fetched.dropLast) : token.kind ≠ .eof := by
  obtain ⟨ahead, htokens⟩ := hfetched
  have hwords : token ∈ Token.words source.toList := by
    show token ∈ (Token.tokenize source).dropLast
    rw [← htokens]
    cases ahead with
    | nil => rwa [List.append_nil]
    | cons next ahead =>
      rw [List.dropLast_append_of_ne_nil (List.cons_ne_nil next ahead)]
      exact List.mem_append_left _ (List.dropLast_subset fetched hmem)
  exact Token.kind_ne_eof_of_mem_words hwords

/-- The parser of a module ends further on in the stream of its source, and at its end if it
succeeds. -/
theorem continues_parse (name source : String) :
    (Module.parse name source).2.Continues (.ofSource source) ∧
      ∀ module, (Module.parse name source).1 = .ok module →
        (Module.parse name source).2.pending = [] := by
  have hrun := ensures_decls maxNesting _ _ (State.valid_ofSource source) rfl
  unfold Module.parse Decl.parseAll Parser.parse
  cases heq : decls maxNesting (State.ofSource source) with
  | error error state =>
    rw [heq] at hrun
    refine ⟨hrun.1, ?_⟩
    intro module hok
    cases hok
  | ok decls state =>
    rw [heq] at hrun
    obtain ⟨hcontinues, heof, -⟩ := hrun
    exact ⟨hcontinues, fun _ _ => hcontinues.valid.pending_eq_nil heof⟩

end Parser

/-- The tokens that are fetched while a module is parsed are the tokens of its source up to the one
on which the parser ends, and all of them if it succeeds.  Nothing is fetched after `eof`. -/
theorem Module.fetches_prefix_of_tokens (name source : String) :
    let fetched := (Module.parse name source).2.fetched
    fetched <+: Token.tokenize source ∧
    fetched.getLast? = some (Module.parse name source).2.current ∧
    (∀ module, (Module.parse name source).1 = .ok module → fetched = Token.tokenize source) ∧
    ∀ token ∈ fetched.dropLast, token.kind ≠ .eof := by
  intro fetched
  obtain ⟨hcontinues, hend⟩ := Parser.continues_parse name source
  have hstream := hcontinues.stream_eq.trans (Parser.stream_ofSource source)
  have hbegins : fetched <+: Token.tokenize source := ⟨_, hstream⟩
  refine ⟨hbegins, hcontinues.current_fetched rfl, fun module hok => ?_, ?_⟩
  · rw [Parser.State.stream, hend module hok] at hstream
    exact (List.append_nil fetched).symm.trans hstream
  · intro token hmem
    exact Parser.kind_ne_eof_of_mem_dropLast hbegins hmem

/-- The parser stops on the second token, and has not looked at the others. -/
example : (Module.parse "m" "extern 1 f").2.fetched = (Token.tokenize "extern 1 f").take 2 := by
  decide +kernel

end Frontend
