import Frontend.Proofs.Deriving.Basic

/-!
# One token of lookahead

`Parser.Local` compares two runs of a parser.  The first run passes over some tokens and
ends on a token, with an answer or an error.  If a second state shows these tokens and then
that token, the second run ends in the same way at the same place, whatever the two sources
hold further on.

A run is compared where it starts (`LocalAt`), since a repetition is known to go on only
from the states that it meets.  The combinators follow a parser as it is written.
`LocalAt.bind_ok` joins the tokens of two runs, one after the other: where the first part ends,
the second source shows either a token of the second part or the token on which the whole
run ends.
-/

namespace Frontend.Parser

variable {α β : Type}

/-- The answer or the error of a run, and the state in which it ends. -/
def outcome (parser : Parser α) (state : State) : Except Error α × State :=
  match parser state with
  | .ok result state' => (.ok result, state')
  | .error error state' => (.error error, state')

theorem outcome_eq_ok_iff {parser : Parser α} {state last : State} {a : α} :
    parser.outcome state = (.ok a, last) ↔ parser state = .ok a last := by
  unfold outcome
  cases parser state <;> simp

theorem outcome_eq_error_iff {parser : Parser α} {state last : State} {error : Error} :
    parser.outcome state = (.error error, last) ↔ parser state = .error error last := by
  unfold outcome
  cases parser state <;> simp

theorem outcome_bind_ok {first : Parser α} {state middle : State} {a : α}
    (hrun : first.outcome state = (.ok a, middle)) (second : α → Parser β) :
    (first >>= second).outcome state = (second a).outcome middle := by
  unfold outcome at hrun ⊢
  simp only [Bind.bind, EStateM.bind]
  cases hfirst : first state <;> simp_all

theorem outcome_bind_error {first : Parser α} {state middle : State} {error : Error}
    (hrun : first.outcome state = (.error error, middle)) (second : α → Parser β) :
    (first >>= second).outcome state = (.error error, middle) := by
  unfold outcome at hrun ⊢
  simp only [Bind.bind, EStateM.bind]
  cases hfirst : first state <;> simp_all

/-- The second run answers as the first one, records the same, and leaves `rest`. -/
structure Repeats (run run' : Except Error α × State) (rest : List Token) : Prop where
  answer : run'.1 = run.1
  valid : run'.2.Valid
  log : run'.2.log = run.2.log
  pending : run'.2.pending = rest

/-- The run from `state` depends on the tokens that it passes over and the one on which it ends,
and on no more. -/
structure LocalAt (parser : Parser α) (state : State) : Prop where
  follows : (parser.outcome state).2.Follows state
  repeats : ∀ (used rest : List Token) (other : State), other.Valid → other.log = state.log →
    state.pending = used ++ (parser.outcome state).2.pending → other.pending = used ++ rest →
    rest.headD .eof = (parser.outcome state).2.current →
    Repeats (parser.outcome state) (parser.outcome other) rest

/-- Every run of the parser depends on the tokens that it passes over and the one on which it
ends, and on no more. -/
def Local (parser : Parser α) : Prop :=
  ∀ state : State, state.Valid → LocalAt parser state

/-! ## Steps -/

/-- What leaves the state as it is and answers by the current token. -/
theorem Local.of_current {parser : Parser α} (answer : Token → Except Error α)
    (hrun : ∀ state, parser.outcome state = (answer state.current, state)) : Local parser := by
  intro state hvalid
  refine ⟨by rw [hrun]; exact hvalid.follows, ?_⟩
  intro used rest other hother hlog hused hpending hcurrent
  rw [hrun] at hused hcurrent
  obtain rfl : used = [] := List.self_eq_append_left.1 hused
  have hsame : other.current = state.current := by
    rw [hother.current_eq, hpending, List.nil_append, hcurrent]
  rw [hrun, hrun, hsame]
  exact ⟨rfl, hother, hlog, hpending⟩

theorem Local.pure (a : α) : Local (pure a) :=
  .of_current (fun _ => .ok a) fun _ => rfl

theorem Local.throw (error : Error) : Local (throw error : Parser α) :=
  .of_current (fun _ => .error error) fun _ => rfl

theorem Local.current : Local current :=
  .of_current .ok fun _ => rfl

theorem Local.unexpected (expected : String) : Local (unexpected expected : Parser α) :=
  .of_current (fun token => .error (.unexpectedToken expected token.describe)) fun _ => rfl

theorem headD_append_congr (tokens : List Token) {rest rest' : List Token} {token : Token}
    (hhead : rest.headD token = rest'.headD token) :
    (tokens ++ rest).headD token = (tokens ++ rest').headD token := by
  cases tokens with
  | nil => exact hhead
  | cons _ _ => rfl

/-- An error of the first part ends the whole run. -/
theorem LocalAt.bind_error {first : Parser α} {second : α → Parser β} {state middle : State}
    {error : Error} (hrun : first.outcome state = (.error error, middle))
    (hfirst : LocalAt first state) : LocalAt (first >>= second) state := by
  obtain ⟨hfollows, hrepeats⟩ := hfirst
  rw [hrun] at hfollows hrepeats
  have hbind := outcome_bind_error hrun second
  refine ⟨by rw [hbind]; exact hfollows, ?_⟩
  intro used rest other hother hlog hused hpending hcurrent
  rw [hbind] at hused hcurrent ⊢
  have hmiddle := hrepeats used rest other hother hlog hused hpending hcurrent
  have hrun' : first.outcome other = (.error error, (first.outcome other).2) :=
    Prod.ext hmiddle.answer rfl
  rw [outcome_bind_error hrun' second]
  exact ⟨rfl, hmiddle.valid, hmiddle.log, hmiddle.pending⟩

/-- The tokens of the whole run are those of its two parts. -/
theorem LocalAt.bind_ok {first : Parser α} {second : α → Parser β} {state middle : State} {a : α}
    (hrun : first.outcome state = (.ok a, middle)) (hfirst : LocalAt first state)
    (hsecond : LocalAt (second a) middle) : LocalAt (first >>= second) state := by
  obtain ⟨hfollows, hrepeats⟩ := hfirst
  obtain ⟨hfollows', hrepeats'⟩ := hsecond
  rw [hrun] at hfollows hrepeats
  have hbind := outcome_bind_ok hrun second
  refine ⟨by rw [hbind]; exact hfollows.trans hfollows', ?_⟩
  intro used rest other hother hlog hused hpending hcurrent
  rw [hbind] at hused hcurrent ⊢
  obtain ⟨before, hbefore⟩ := hfollows.suffix
  obtain ⟨after, hafter⟩ := hfollows'.suffix
  obtain rfl : used = before ++ after := by
    rw [← hbefore, ← hafter, ← List.append_assoc] at hused
    exact (List.append_cancel_right hused).symm
  -- The first part of the second run ends on the token on which that of the first run ended.
  have hhead : (after ++ rest).headD .eof = middle.current := by
    rw [hfollows'.valid.current_eq] at hcurrent
    rw [hfollows.valid.current_eq, ← hafter, headD_append_congr after hcurrent]
  have hmiddle := hrepeats before (after ++ rest) other hother hlog hbefore.symm
    (by rw [hpending, List.append_assoc]) hhead
  have hrun' : first.outcome other = (.ok a, (first.outcome other).2) :=
    Prod.ext hmiddle.answer rfl
  rw [outcome_bind_ok hrun' second]
  exact hrepeats' after rest _ hmiddle.valid hmiddle.log hafter.symm hmiddle.pending hcurrent

theorem LocalAt.bind {first : Parser α} {second : α → Parser β} {state : State}
    (hfirst : LocalAt first state)
    (hsecond : ∀ a middle, first.outcome state = (.ok a, middle) → LocalAt (second a) middle) :
    LocalAt (first >>= second) state := by
  rcases hrun : first.outcome state with ⟨error | a, middle⟩
  · exact hfirst.bind_error hrun
  · exact hfirst.bind_ok hrun (hsecond a middle hrun)

theorem Local.bind {first : Parser α} {second : α → Parser β} (hfirst : Local first)
    (hsecond : ∀ a, Local (second a)) : Local (first >>= second) := by
  intro state hvalid
  have hat := hfirst state hvalid
  refine hat.bind fun a middle hrun => hsecond a middle ?_
  have hmiddle := hat.follows.valid
  rwa [hrun] at hmiddle

/-- Looking at the current token and going on by what it is. -/
theorem Local.current_bind {second : Token → Parser β} (hsecond : ∀ token, Local (second token)) :
    Local (Parser.current >>= second) :=
  Local.current.bind hsecond

theorem Local.ite {condition : Prop} [Decidable condition] {first second : Parser α}
    (hfirst : Local first) (hsecond : Local second) :
    Local (if condition then first else second) := by
  split
  · exact hfirst
  · exact hsecond

/-- A step passes over the same token in both states.  At the end of a source nothing is passed
over, and then the second state is at its end too. -/
theorem State.Valid.advance_alike {state other : State} (hvalid : state.Valid)
    (hother : other.Valid) {used rest : List Token}
    (hused : state.pending = used ++ state.advance.pending) (hpending : other.pending = used ++ rest)
    (hcurrent : rest.headD .eof = state.advance.current) :
    other.current = state.current ∧ other.advance.pending = rest := by
  rw [hother.current_eq, hvalid.current_eq, hother.pending_advance]
  rw [hvalid.pending_advance] at hused
  cases hstate : state.pending with
  | nil =>
    rw [hstate, List.tail_nil, List.append_nil] at hused
    subst hused
    have hadvance : state.advance.current = .eof := by
      rw [hvalid.follows_advance.valid.current_eq, hvalid.pending_advance, hstate]
      rfl
    have hend : other.pending = [] := by
      rw [State.pending_eq_nil_iff, hother.current_eq, hpending, List.nil_append, hcurrent,
        hadvance]
      rfl
    rw [hend, List.nil_append] at hpending
    rw [hend, ← hpending]
    exact ⟨rfl, rfl⟩
  | cons token tokens =>
    rw [hstate, List.tail_cons] at hused
    obtain rfl : used = [token] := (List.append_cancel_right hused).symm
    rw [hpending]
    exact ⟨rfl, rfl⟩

/-- The event of a step is the token on which it ends, so it is the same in both runs. -/
theorem Local.advance : Local advance := by
  intro state hvalid
  have hrun (state : State) :
      Parser.advance.outcome state = (Except.ok state.current, state.advance) := rfl
  refine ⟨by rw [hrun]; exact hvalid.follows_advance, ?_⟩
  intro used rest other hother hlog hused hpending hcurrent
  rw [hrun] at hused hcurrent
  obtain ⟨hsame, hrest⟩ := hvalid.advance_alike hother hused hpending hcurrent
  have hvalid' : other.advance.Valid := hother.follows_advance.valid
  rw [hrun, hrun, hsame]
  refine ⟨rfl, hvalid', ?_, hrest⟩
  have hevent : other.advance.current = state.advance.current := by
    rw [hvalid'.current_eq, hrest, hcurrent]
  show other.log.push (.lexed other.advance.current) = state.log.push (.lexed state.advance.current)
  rw [hlog, hevent]

theorem Local.expect (kind : Token.Kind) (expected : String) : Local (expect kind expected) :=
  Local.current_bind fun _ => Local.ite Local.advance (Local.unexpected expected)

theorem Local.expectMisc (text : String) : Local (expectMisc text) :=
  Local.current_bind fun _ => Local.ite Local.advance (Local.unexpected text)

theorem Local.discard {parser : Parser α} (h : Local parser) : Local (Functor.discard parser) :=
  h.bind fun _ => Local.pure ()

theorem Local.record (event : Event) : Local (record event) := by
  intro state hvalid
  refine ⟨hvalid.follows_log _, ?_⟩
  intro used rest other hother hlog hused hpending hcurrent
  obtain rfl : used = [] := List.self_eq_append_left.1 hused
  refine ⟨rfl, (hother.follows_log _).valid, ?_, hpending⟩
  show other.log.push event = state.log.push event
  rw [hlog]

/-! ## Repetition -/

/-- Parsers that agree on the states of a source are local together. -/
theorem LocalAt.congr {parser parser' : Parser α} {state : State}
    (hrun : ∀ state : State, state.Valid → parser.outcome state = parser'.outcome state)
    (hvalid : state.Valid) (h : LocalAt parser' state) : LocalAt parser state := by
  refine ⟨by rw [hrun state hvalid]; exact h.follows, ?_⟩
  intro used rest other hother hlog hused hpending hcurrent
  rw [hrun state hvalid] at hused hcurrent ⊢
  rw [hrun other hother]
  exact h.repeats used rest other hother hlog hused hpending hcurrent

/-- One round of a repetition, and then the others. -/
def round (step : Parser (Option α)) : Parser (List α) := do
  match ← step with
  | none => return []
  | some item => return item :: (← collect step)

/-- After a round that finds something, the others add to it. -/
theorem outcome_round_some {step : Parser (Option α)} {state middle : State} {a : α}
    (hrun : step.outcome state = (.ok (some a), middle)) :
    (round step).outcome state =
      ((outcome (collect step) middle).1.map (a :: ·), (outcome (collect step) middle).2) := by
  rw [round, outcome_bind_ok hrun]
  unfold outcome
  simp only [Bind.bind, EStateM.bind]
  cases collect step middle <;> rfl

/-- A round that finds something and leaves less to be read is followed by others. -/
theorem outcome_collect_of_progress {step : Parser (Option α)} {state : State}
    (hprogress : ∀ a middle, step.outcome state = (.ok (some a), middle) →
      middle.remaining < state.remaining) :
    outcome (collect step) state = (round step).outcome state := by
  unfold outcome at hprogress ⊢
  rw [collect]
  simp only [round, Bind.bind, EStateM.bind]
  cases heq : step state with
  | error error middle => rfl
  | ok answer middle =>
    cases answer with
    | none => rfl
    | some a =>
      rw [heq] at hprogress
      simp only [if_pos (hprogress a middle rfl), EStateM.bind]
      cases collect step middle <;> rfl

/-- A round that finds something passes over a token, so the repetition goes on. -/
theorem outcome_collect {step : Parser (Option α)} {item : List Token → α → Prop}
    {stop : List Token → Prop} (hstep : ∀ tokens, Ensures step tokens (Round item stop tokens))
    {state : State} (hvalid : state.Valid) :
    outcome (collect step) state = (round step).outcome state := by
  refine outcome_collect_of_progress fun a middle hrun => ?_
  have hround := hstep state.pending state hvalid rfl
  rw [outcome_eq_ok_iff.1 hrun] at hround
  exact remaining_lt_of_round hround.1.toFollows hround.2

/-- The induction is on what remains to be read, which every round but the last makes less. -/
theorem Local.collect {step : Parser (Option α)} {item : List Token → α → Prop}
    {stop : List Token → Prop} (hstep : ∀ tokens, Ensures step tokens (Round item stop tokens))
    (hlocal : Local step) : Local (collect step) := by
  intro state hvalid
  induction hremaining : state.remaining using Nat.strongRecOn generalizing state with
  | ind remaining ih =>
    refine LocalAt.congr (fun state hvalid => outcome_collect hstep hvalid) hvalid ?_
    refine (hlocal state hvalid).bind fun answer middle hrun => ?_
    have hround := hstep state.pending state hvalid rfl
    rw [outcome_eq_ok_iff.1 hrun] at hround
    obtain ⟨hcontinues, hround⟩ := hround
    cases answer with
    | none => exact Local.pure [] middle hcontinues.valid
    | some a =>
      have hprogress := remaining_lt_of_round hcontinues.toFollows hround
      have hrest := ih _ (hremaining ▸ hprogress) middle hcontinues.valid rfl
      refine LocalAt.bind hrest fun items last hrun' => Local.pure (a :: items) last ?_
      have hlast := hrest.follows.valid
      rwa [hrun'] at hlast

end Frontend.Parser
