import Frontend.Proofs.Annotation.Events
import Frontend.Proofs.Quiet
import Frontend.Proofs.Reading.Module

/-!
# The log of a compilation

Which events a log shows that leaves out the single tokens.

* Parsing.  Only the parser of a declaration records such an event (`shown_decl?`), so the log
  of a source tells of the declarations that its tokens begin with (`decls_shown`), whether the
  rest can be read or not.
* Compilation.  `compile_log_faithful` adds what the annotation records, which is a function of
  the declarations up to the first that fails.
-/

open Frontend.Grammar

namespace Frontend

/-- The event that tells of the declaration when it has been parsed. -/
def Decl.parsedEvent (decl : Decl) : Event :=
  .parsed decl.name decl.isExtern

namespace Parser

/-! ## Parsing -/

/-- The events of a state, without the tokens. -/
def State.shown (state : State) : List Event :=
  state.log.toList.filter (Event.isShownAt .debug)

theorem State.shown_iterate (steps : Nat) (state : State) :
    (State.advance^[steps] state).shown = state.shown := by
  induction steps generalizing state with
  | zero => rfl
  | succ steps ih =>
    have hstep : state.advance.shown = state.shown := by
      simp [shown, advance, Event.isShownAt, Event.level]
    rw [Function.iterate_succ_apply, ih, hstep]

theorem Quiet.shown {α : Type} {parser : Parser α} (hquiet : Quiet parser) (state : State) :
    (parser.outcome state).2.shown = state.shown := by
  obtain ⟨steps, hsteps⟩ := hquiet.moves state
  rw [hsteps, State.shown_iterate]

/-- What a round of the parser of declarations records, by its answer. -/
def recorded : Except Error (Option Decl) → List Event
  | .ok (some decl) => [decl.parsedEvent]
  | _ => []

theorem shown_record (decl : Decl) (state : State) :
    (outcome (record decl.parsedEvent) state).2.shown = state.shown ++ [decl.parsedEvent] := by
  show (state.log.push decl.parsedEvent).toList.filter _ = _
  rw [Array.toList_push, List.filter_append]
  rfl

/-- A declaration is recorded when all of it has been read. -/
theorem shown_decl? (levels : Nat) (state : State) :
    ((decl? levels).outcome state).2.shown =
      state.shown ++ recorded ((decl? levels).outcome state).1 := by
  have hdecl {parser : Parser Decl} (hquiet : Quiet parser) :
      ∀ run, run = (do
        let decl ← parser
        record (.parsed decl.name decl.isExtern)
        return some decl : Parser (Option Decl)).outcome state →
      run.2.shown = state.shown ++ recorded run.1 := by
    intro run hrun
    have hshown := hquiet.shown state
    rcases hparser : parser.outcome state with ⟨error | decl, middle⟩ <;> rw [hparser] at hshown
    · rw [outcome_bind_error hparser] at hrun
      rw [hrun, hshown]
      exact (List.append_nil _).symm
    · rw [outcome_bind_ok hparser] at hrun
      rw [hrun, ← hshown]
      exact shown_record decl middle
  have hcurrent : outcome current state = (.ok state.current, state) := rfl
  unfold decl?
  rw [outcome_bind_ok hcurrent]
  dsimp only
  split
  · exact (List.append_nil _).symm
  · exact hdecl (quiet_definition levels) _ rfl
  · exact hdecl quiet_externDecl _ rfl
  · exact hdecl (.unexpected _) _ rfl

/-- No declaration can be read off the tokens. -/
def Stuck (levels : Nat) (tokens : List Token) : Prop :=
  ∀ used rest decl, tokens = used ++ rest → ¬Within Declaration levels used decl

theorem stuck_nil (levels : Nat) : Stuck levels [] := by
  intro used rest decl htokens hdecl
  obtain ⟨top, -, hdecl⟩ := hdecl
  exact hdecl.ne_nil (List.append_eq_nil_iff.1 htokens.symm).1

/-- Where the parser of a declaration fails, there is none, and it is not the end. -/
theorem stuck_of_error {levels : Nat} {state last : State} {error : Error} (hvalid : state.Valid)
    (hrun : decl? levels state = .error error last) :
    state.pending ≠ [] ∧ Stuck levels state.pending := by
  constructor
  · intro hnil
    have hend : Reads (decl? levels) True [] none [] := Reads.current_bind (Reads.pure none [])
    obtain ⟨last', hok, -⟩ := (hend state hvalid hnil).1 trivial
    rw [hok] at hrun
    cases hrun
  · intro used rest decl htokens hdecl
    obtain ⟨top, htop, hdecl⟩ := hdecl
    obtain ⟨last', hok, -⟩ := (reads_declaration hdecl levels rest state hvalid htokens).1 htop
    rw [hok] at hrun
    cases hrun

/-- The log tells of the declarations that the tokens begin with.  They are all of them exactly if
the parser succeeds. -/
theorem decls_shown (levels : Nat) {state : State} (hvalid : state.Valid) :
    ∃ used rest found, state.pending = used ++ rest ∧ Within Declarations levels used found ∧
      Stuck levels rest ∧
      ((decls levels).outcome state).2.shown = state.shown ++ found.map Decl.parsedEvent ∧
      (((decls levels).outcome state).1 = .ok found ∧ rest = [] ∨
        ∃ error, ((decls levels).outcome state).1 = .error error ∧ rest ≠ []) := by
  have hnil : Within Declarations levels [] [] := ⟨0, Nat.zero_le _, .nil⟩
  induction hremaining : state.remaining using Nat.strongRecOn generalizing state with
  | ind remaining ih =>
    unfold decls
    rw [outcome_collect (ensures_decl? levels) hvalid]
    have hround := ensures_decl? levels state.pending state hvalid rfl
    have hshown := shown_decl? levels state
    rcases hrun : (decl? levels).outcome state with ⟨error | _ | decl, middle⟩ <;>
      rw [hrun] at hshown
    · obtain ⟨hne, hstuck⟩ := stuck_of_error hvalid (outcome_eq_error_iff.1 hrun)
      rw [round, outcome_bind_error hrun]
      exact ⟨[], state.pending, [], rfl, hnil, hstuck, hshown, .inr ⟨error, rfl, hne⟩⟩
    · rw [outcome_eq_ok_iff.1 hrun] at hround
      have hend : state.pending = [] := hvalid.pending_eq_nil hround.2.2
      rw [round, outcome_bind_ok hrun, hend]
      exact ⟨[], [], [], rfl, hnil, stuck_nil levels, hshown, .inl ⟨rfl, rfl⟩⟩
    · rw [outcome_eq_ok_iff.1 hrun] at hround
      obtain ⟨hcontinues, hround⟩ := hround
      have hless := remaining_lt_of_round hcontinues.toFollows hround
      obtain ⟨used, -, hused, hdecl⟩ := hround
      obtain ⟨used', rest, found, hused', hfound, hstuck, hshown', hanswer⟩ :=
        ih _ (hremaining ▸ hless) hcontinues.valid rfl
      have hfirst : middle.shown = state.shown ++ [decl.parsedEvent] := hshown
      rw [outcome_round_some hrun]
      refine ⟨used ++ used', rest, decl :: found, by rw [hused, hused', List.append_assoc],
        declarations_cons hdecl hfound, hstuck, ?_, ?_⟩
      · rw [hfirst, List.append_assoc] at hshown'
        exact hshown'
      · rcases hanswer with ⟨hok, hend⟩ | ⟨error, herror, hne⟩
        · exact .inl ⟨congrArg (Except.map (decl :: ·)) hok, hend⟩
        · exact .inr ⟨error, congrArg (Except.map (decl :: ·)) herror, hne⟩

/-- The log of a source that was parsed, or could not be. -/
theorem parse_shown (name source : String) :
    ∃ used rest found, (Token.tokenize source).dropLast = used ++ rest ∧
      Within Declarations maxNesting used found ∧ Stuck maxNesting rest ∧
      (Module.parse name source).2.shown = found.map Decl.parsedEvent ∧
      ((Module.parse name source).1 = .ok ⟨name, found⟩ ∧ rest = [] ∨
        ∃ error, (Module.parse name source).1 = .error error ∧ rest ≠ []) := by
  have hrun := decls_shown maxNesting (State.valid_ofSource source)
  rw [State.pending_ofSource] at hrun
  obtain ⟨used, rest, found, hused, hfound, hstuck, hshown, hanswer⟩ := hrun
  have hparse : Decl.parseAll source = (decls maxNesting).outcome (.ofSource source) := rfl
  have hstart : (State.ofSource source).shown = [] := rfl
  rw [hstart, List.nil_append, ← hparse] at hshown
  rw [← hparse] at hanswer
  refine ⟨used, rest, found, hused, hfound, hstuck, hshown, ?_⟩
  unfold Module.parse
  obtain ⟨hok, hend⟩ | ⟨error, herror, hne⟩ := hanswer
  · exact .inl ⟨by simp only [hok, Except.map], hend⟩
  · exact .inr ⟨error, by simp only [herror, Except.map], hne⟩

end Parser

/-! ## Compilation -/

theorem events_compile_of_parse {name source : String} {module : Module}
    (hparse : (Module.parse name source).1 = .ok module) :
    (compile name source).1 =
      (Module.parse name source).2.log.toList ++ (module.annotate .initial).events := by
  unfold compile
  rcases hresult : Module.parse name source with ⟨error | parsed, state⟩ <;>
    rw [hresult] at hparse
  · cases hparse
  · cases hparse
    rfl

theorem events_compile_of_parse_error {name source : String} {error : Error}
    (hparse : (Module.parse name source).1 = .error error) :
    (compile name source).1 = (Module.parse name source).2.log.toList := by
  unfold compile
  rcases hresult : Module.parse name source with ⟨error | parsed, state⟩
  · rfl
  · rw [hresult] at hparse
    cases hparse

/-- The event tells of a tag that was in place. -/
def Event.isReuse : Event → Bool
  | .reusedOperator .. | .reusedCall .. => true
  | _ => false

/-- What an annotation records is shown, and is no reuse. -/
theorem Decl.mem_logFrom {earlier : List Prototype} {decls : List Decl} {event : Event}
    (hmem : event ∈ logFrom earlier decls) :
    event.isShownAt .debug = true ∧ event.isReuse = false := by
  induction decls generalizing earlier with
  | nil => cases hmem
  | cons decl decls ih =>
    rcases List.mem_append.1 hmem with hmem | hmem
    · unfold logged at hmem
      split at hmem
      · simp only [List.mem_cons, List.not_mem_nil, or_false] at hmem
        rcases hmem with rfl | rfl <;> exact ⟨rfl, rfl⟩
      · rw [List.mem_singleton] at hmem
        subst hmem
        exact ⟨rfl, rfl⟩
    · exact ih hmem

/-- The events that tell of parsed declarations leave a table as it is. -/
theorem Overloads.replay_parsed (overloads : Overloads) (decls : List Decl) :
    overloads.replay (decls.map Decl.parsedEvent) = overloads := by
  induction decls with
  | nil => rfl
  | cons decl decls ih => exact ih

/-- A reuse would be shown. -/
theorem isReuse_eq_false_of_shown {events : List Event} {decls visited : List Decl}
    (hshown : events.filter (Event.isShownAt .debug) =
      decls.map Decl.parsedEvent ++ Decl.logFrom [] visited) :
    ∀ event ∈ events, event.isReuse = false := by
  intro event hmem
  by_contra hreuse
  have hlevel : event.isShownAt .debug = true := by
    cases event <;> first | rfl | exact absurd rfl hreuse
  have hmem := List.mem_filter.2 ⟨hmem, hlevel⟩
  rw [hshown] at hmem
  rcases List.mem_append.1 hmem with hmem | hmem
  · obtain ⟨decl, -, rfl⟩ := List.mem_map.1 hmem
    exact hreuse rfl
  · exact hreuse (Decl.mem_logFrom hmem).2

/-- Once the source is parsed, the annotation tells of the declarations that it visits, and the
table can be built again from what it tells. -/
theorem shown_compile_of_parse {name source : String} {module : Module}
    (hparse : (Module.parse name source).1 = .ok module) :
    ∃ visited, Decl.Visits .initial module.decls visited ∧
      (compile name source).1.filter (Event.isShownAt .debug) =
        (Module.parse name source).2.shown ++ Decl.logFrom [] visited ∧
      Overloads.builtin.replay (Decl.logFrom [] visited) =
        (module.annotate .initial).annotator.overloads := by
  have hinitial : Represents Annotator.initial.overloads [] := represents_builtin
  obtain ⟨visited, hvisits, hlogged, hreplay⟩ :=
    Decl.annotateAll_records (Module.plain_of_parse hparse).2 hinitial
  have hfilter : (Decl.logFrom [] visited).filter (Event.isShownAt .debug) =
      Decl.logFrom [] visited :=
    List.filter_eq_self.2 fun event hmem => (Decl.mem_logFrom hmem).1
  refine ⟨visited, hvisits, ?_, hlogged ▸ hreplay⟩
  rw [events_compile_of_parse hparse, List.filter_append, ← hfilter, ← hlogged]
  rfl

/-- The log of a compilation, without the tokens.  First it tells of the declarations that the
tokens begin with, which are all if the source is parsed.  Then it tells of those that are visited
by the annotation, and of the overloads that they add, from which the table can be built again.
No tag is ever found in place. -/
theorem compile_log_faithful (name source : String) :
    let shown := (compile name source).1.filter (Event.isShownAt .debug)
    (∀ event ∈ (compile name source).1, event.isReuse = false) ∧
    ∃ used rest decls, (Token.tokenize source).dropLast = used ++ rest ∧
      Parser.Within Declarations Parser.maxNesting used decls ∧
      Parser.Stuck Parser.maxNesting rest ∧
      (∀ error, (Module.parse name source).1 = .error error →
        rest ≠ [] ∧ shown = decls.map Decl.parsedEvent ∧
          Overloads.builtin.replay shown = Overloads.builtin) ∧
      ∀ module, (Module.parse name source).1 = .ok module →
        rest = [] ∧ module.decls = decls ∧
        ∃ visited, Decl.Visits .initial decls visited ∧
          shown = decls.map Decl.parsedEvent ++ Decl.logFrom [] visited ∧
          Overloads.builtin.replay shown = (module.annotate .initial).annotator.overloads ∧
          ∀ compiled, (compile name source).2 = .ok compiled →
            Overloads.builtin.replay shown = compiled.annotator.overloads := by
  intro shown
  obtain ⟨used, rest, decls, hused, hdecls, hstuck, hparsed, hanswer⟩ :=
    Parser.parse_shown name source
  rcases hanswer with ⟨hparse, hrest⟩ | ⟨error, hparse, hrest⟩
  · obtain ⟨visited, hvisits, hshown, htable⟩ := shown_compile_of_parse hparse
    rw [hparsed] at hshown
    have hreplay : Overloads.builtin.replay shown =
        (Module.annotate .initial ⟨name, decls⟩).annotator.overloads := by
      show Overloads.builtin.replay ((compile name source).1.filter _) = _
      rw [hshown, Overloads.replay_append, Overloads.replay_parsed, htable]
    refine ⟨isReuse_eq_false_of_shown hshown, used, rest, decls, hused, hdecls, hstuck, ?_, ?_⟩
    · intro error herror
      rw [hparse] at herror
      cases herror
    · intro module hmodule
      rw [hparse] at hmodule
      cases hmodule
      refine ⟨hrest, rfl, visited, hvisits, hshown, hreplay, fun compiled hcompiled => ?_⟩
      rw [compile_of_parse hparse] at hcompiled
      obtain ⟨done, -, rfl⟩ := map_eq_ok_iff.1 hcompiled
      exact hreplay
  · have hshown : shown = decls.map Decl.parsedEvent := by
      show (compile name source).1.filter _ = _
      rw [events_compile_of_parse_error hparse, ← hparsed]
      rfl
    have hnone : shown = decls.map Decl.parsedEvent ++ Decl.logFrom [] [] :=
      hshown.trans (List.append_nil _).symm
    have hreplay : Overloads.builtin.replay shown = Overloads.builtin := by
      rw [hshown, Overloads.replay_parsed]
    refine ⟨isReuse_eq_false_of_shown hnone, used, rest, decls, hused, hdecls, hstuck,
      fun _ _ => ⟨hrest, hshown, hreplay⟩, ?_⟩
    intro module hmodule
    rw [hparse] at hmodule
    cases hmodule

/-- The second declaration adds nothing, and the third fails before it can. -/
example :
    (compile "m" ("extern f(x: int): int extern f(y: int): int " ++
      "extern g(a: int, a: int): int extern h(): int")).1.filter (Event.isShownAt .debug) =
      [.parsed "f" true, .parsed "f" true, .parsed "g" true, .parsed "h" true,
        .annotating "f" true, .registered "f" ⟨["int"], "int"⟩, .annotating "f" true,
        .annotating "g" true] := by
  decide +kernel

end Frontend
