import Frontend.Proofs.Descent.Climbing
import Frontend.Proofs.Descent.Routines

/-!
# The routines end as the parsers

`Matches` compares a routine with a parser that has as many levels left as the depth of the
machine allows.  The routine ends, with the answer or the error of the parser and in the same
state; the machine is then as deep as before, and has not been deeper than it may.

The combinators follow a routine as it is written.  Two things are proved by induction: that a
repetition ends, on what remains to be read, and that recursion does, on the levels.
-/

namespace Frontend.Descent

open Frontend.Parser

variable {α β : Type} {machine last : Machine} {levels : Nat}

/-! ## Runs -/

theorem bind_eq_of_ok {first : Descent α} {a : α} (hrun : first machine = some (.ok a, last))
    (second : α → Descent β) : (first >>= second) machine = second a last := by
  simp only [Bind.bind, ExceptT.bind, ExceptT.mk, StateT.bind, hrun]
  rfl

theorem bind_eq_of_error {first : Descent α} {error : Error}
    (hrun : first machine = some (.error error, last)) (second : α → Descent β) :
    (first >>= second) machine = some (.error error, last) := by
  simp only [Bind.bind, ExceptT.bind, ExceptT.mk, StateT.bind, hrun]
  rfl

theorem lift_eq {parser : Parser α} {answer : Except Error α} {state : State}
    (houtcome : parser.outcome machine.state = (answer, state)) :
    lift parser machine = some (answer, { machine with state }) := by
  unfold lift
  cases answer with
  | ok a => rw [outcome_eq_ok_iff.1 houtcome]
  | error error => rw [outcome_eq_error_iff.1 houtcome]

theorem Settles.of_eq {run : Nat → Option α} {value : α} (hrun : ∀ calls, run calls = some value) :
    Settles run value :=
  ⟨0, fun calls _ => hrun calls⟩

/-- A run gives one value only. -/
theorem Settles.unique {run : Nat → Option α} {value other : α} (hvalue : Settles run value)
    (hother : Settles run other) : value = other := by
  obtain ⟨enough, hvalue⟩ := hvalue
  obtain ⟨enough', hother⟩ := hother
  have hrun := hvalue (max enough enough') (by omega)
  rw [hother (max enough enough') (by omega)] at hrun
  exact (Option.some.inj hrun).symm

/-- A run whose calls each take one of those that are left. -/
theorem Settles.of_succ {run body : Nat → Option α} {value : α}
    (hrun : ∀ calls, run (calls + 1) = body calls) (hbody : Settles body value) :
    Settles run value := by
  obtain ⟨enough, hbody⟩ := hbody
  refine ⟨enough + 1, fun calls hcalls => ?_⟩
  obtain ⟨less, rfl⟩ := Nat.exists_eq_add_one_of_ne_zero (show calls ≠ 0 by omega)
  rw [hrun, hbody less (by omega)]

theorem Settles.bind_ok {first : Nat → Descent α} {second : α → Nat → Descent β} {a : α}
    {middle : Machine} {value : Except Error β × Machine}
    (hfirst : Settles (fun calls => first calls machine) (.ok a, middle))
    (hsecond : Settles (fun calls => second a calls middle) value) :
    Settles (fun calls => (first calls >>= fun a => second a calls) machine) value := by
  obtain ⟨enough, hfirst⟩ := hfirst
  obtain ⟨enough', hsecond⟩ := hsecond
  refine ⟨max enough enough', fun calls hcalls => ?_⟩
  have hrun := bind_eq_of_ok (hfirst calls (by omega)) fun a => second a calls
  exact hrun.trans (hsecond calls (by omega))

theorem Settles.bind_error {first : Nat → Descent α} {error : Error}
    (hfirst : Settles (fun calls => first calls machine) (.error error, last))
    (second : α → Nat → Descent β) :
    Settles (fun calls => (first calls >>= fun a => second a calls) machine)
      (.error error, last) := by
  obtain ⟨enough, hfirst⟩ := hfirst
  exact ⟨enough, fun calls hcalls => bind_eq_of_error (hfirst calls hcalls) _⟩

/-- A run has gone from `machine` to `last`: on in the source, back up to the same depth, and
nowhere too deep. -/
structure Returned (machine last : Machine) : Prop where
  follows : last.state.Follows machine.state
  depth_eq : last.depth = machine.depth
  deepest_le : machine.deepest ≤ maxNesting → last.deepest ≤ maxNesting

theorem Returned.trans {first second third : Machine} (hfirst : Returned first second)
    (hsecond : Returned second third) : Returned first third where
  follows := hfirst.follows.trans hsecond.follows
  depth_eq := hsecond.depth_eq.trans hfirst.depth_eq
  deepest_le hle := hsecond.deepest_le (hfirst.deepest_le hle)

theorem Returned.refl (hvalid : machine.state.Valid) : Returned machine machine where
  follows := hvalid.follows
  depth_eq := rfl
  deepest_le := id

/-- From `machine` the routine ends with what the parser ends with. -/
def MatchesAt (routine : Nat → Descent α) (parser : Parser α) (machine : Machine) : Prop :=
  ∃ answer last, Settles (fun calls => routine calls machine) (answer, last) ∧
    parser.outcome machine.state = (answer, last.state) ∧ Returned machine last

/-- From every machine with so many levels left, the routine ends with what the parser ends
with. -/
def Matches (levels : Nat) (routine : Nat → Descent α) (parser : Parser α) : Prop :=
  ∀ machine : Machine, machine.state.Valid → machine.depth + levels = maxNesting →
    MatchesAt routine parser machine

/-! ## Steps -/

theorem MatchesAt.congr {routine : Nat → Descent α} {parser parser' : Parser α}
    (hsame : parser.outcome machine.state = parser'.outcome machine.state)
    (h : MatchesAt routine parser' machine) : MatchesAt routine parser machine := by
  obtain ⟨answer, last, hrun, houtcome, hreturned⟩ := h
  exact ⟨answer, last, hrun, hsame.trans houtcome, hreturned⟩

theorem MatchesAt.of_succ {routine body : Nat → Descent α} {parser : Parser α}
    (hcall : ∀ calls, routine (calls + 1) = body calls) (h : MatchesAt body parser machine) :
    MatchesAt routine parser machine := by
  obtain ⟨answer, last, hrun, houtcome, hreturned⟩ := h
  have hrun' : Settles (fun calls => routine calls machine) (answer, last) :=
    Settles.of_succ (fun calls => congrFun (hcall calls) machine) hrun
  exact ⟨answer, last, hrun', houtcome, hreturned⟩

theorem Matches.of_succ {routine body : Nat → Descent α} {parser : Parser α}
    (hcall : ∀ calls, routine (calls + 1) = body calls) (h : Matches levels body parser) :
    Matches levels routine parser :=
  fun machine hvalid hdepth => .of_succ hcall (h machine hvalid hdepth)

theorem MatchesAt.pure (a : α) (hvalid : machine.state.Valid) :
    MatchesAt (fun _ => pure a) (pure a) machine :=
  ⟨.ok a, machine, .of_eq fun _ => rfl, rfl, .refl hvalid⟩

theorem Matches.pure (a : α) : Matches levels (fun _ => pure a) (pure a) :=
  fun _ hvalid _ => .pure a hvalid

theorem Matches.lift {parser : Parser α} (hlocal : Local parser) :
    Matches levels (fun _ => lift parser) parser := by
  intro machine hvalid _
  have hfollows := (hlocal machine.state hvalid).follows
  rcases houtcome : parser.outcome machine.state with ⟨answer, state⟩
  rw [houtcome] at hfollows
  exact ⟨answer, { machine with state }, .of_eq fun _ => lift_eq houtcome, houtcome, hfollows, rfl,
    id⟩

/-- A run goes on from where its first part ends. -/
theorem MatchesAt.bind {first : Nat → Descent α} {second : α → Nat → Descent β}
    {parser : Parser α} {next : α → Parser β} (hfirst : MatchesAt first parser machine)
    (hsecond : ∀ a middle, parser.outcome machine.state = (.ok a, middle.state) →
      Returned machine middle → MatchesAt (second a) (next a) middle) :
    MatchesAt (fun calls => first calls >>= fun a => second a calls) (parser >>= next) machine := by
  obtain ⟨answer, middle, hrun, houtcome, hreturned⟩ := hfirst
  cases answer with
  | error error =>
    exact ⟨.error error, middle, hrun.bind_error second, outcome_bind_error houtcome next,
      hreturned⟩
  | ok a =>
    obtain ⟨answer, last, hrun', houtcome', hreturned'⟩ := hsecond a middle houtcome hreturned
    exact ⟨answer, last, hrun.bind_ok hrun', (outcome_bind_ok houtcome next).trans houtcome',
      hreturned.trans hreturned'⟩

theorem Matches.bind {first : Nat → Descent α} {second : α → Nat → Descent β} {parser : Parser α}
    {next : α → Parser β} (hfirst : Matches levels first parser)
    (hsecond : ∀ a, Matches levels (second a) (next a)) :
    Matches levels (fun calls => first calls >>= fun a => second a calls) (parser >>= next) := by
  intro machine hvalid hdepth
  refine (hfirst machine hvalid hdepth).bind fun a middle _ hreturned => ?_
  exact hsecond a middle hreturned.follows.valid (hreturned.depth_eq ▸ hdepth)

/-- Looking at the current token. -/
theorem MatchesAt.current_bind_left {second : Token → Nat → Descent β} {parser : Parser β}
    (hsecond : MatchesAt (second machine.state.current) parser machine) :
    MatchesAt (fun calls => Descent.lift current >>= fun token => second token calls) parser
      machine :=
  hsecond

theorem MatchesAt.current_bind {second : Token → Nat → Descent β} {next : Token → Parser β}
    (hsecond : MatchesAt (second machine.state.current) (next machine.state.current) machine) :
    MatchesAt (fun calls => Descent.lift current >>= fun token => second token calls)
      (current >>= next) machine :=
  hsecond

/-- Looking at the current token and going on by what it is. -/
theorem Matches.current_bind {second : Token → Nat → Descent β} {next : Token → Parser β}
    (hsecond : ∀ token, Matches levels (second token) (next token)) :
    Matches levels (fun calls => Descent.lift current >>= fun token => second token calls)
      (current >>= next) :=
  (Matches.lift Local.current).bind hsecond

theorem Matches.ite {condition : Prop} [Decidable condition] {first second : Nat → Descent α}
    {parser parser' : Parser α} (hfirst : Matches levels first parser)
    (hsecond : Matches levels second parser') :
    Matches levels (fun calls => if condition then first calls else second calls)
      (if condition then parser else parser') := by
  split
  · exact hfirst
  · exact hsecond

theorem Matches.unexpected (expected : String) :
    Matches levels (fun _ => (Descent.lift (unexpected expected) : Descent α))
      (unexpected expected) :=
  Matches.lift (Local.unexpected expected)

/-- One level further down there is one level less. -/
theorem Matches.nested {routine : Nat → Descent α} {parser : Nat → Parser α}
    (hbelow : ∀ below < levels, Matches below routine (parser below)) :
    Matches levels (fun calls => Descent.nested (routine calls)) (Parser.nested parser levels) := by
  intro machine hvalid hdepth
  cases levels with
  | zero =>
    have hlast : maxNesting ≤ machine.depth := by omega
    exact ⟨.error (.nestingTooDeep maxNesting), machine, .of_eq fun _ => if_pos hlast, rfl,
      .refl hvalid⟩
  | succ below =>
    have hlevel : ¬maxNesting ≤ machine.depth := by omega
    have henter : machine.enter.depth + below = maxNesting := by
      show machine.depth + 1 + below = maxNesting
      omega
    obtain ⟨answer, last, ⟨enough, hrun⟩, houtcome, hreturned⟩ :=
      hbelow below (Nat.lt_succ_self below) machine.enter hvalid henter
    refine ⟨answer, last.leave, ⟨enough, fun calls hcalls => ?_⟩, houtcome, hreturned.follows, ?_,
      fun hle => ?_⟩
    · have hinner : routine calls machine.enter = some (answer, last) := hrun calls hcalls
      show (if _ then _ else _) = _
      rw [if_neg hlevel, hinner]
      rfl
    · show last.depth - 1 = machine.depth
      rw [hreturned.depth_eq]
      rfl
    · refine hreturned.deepest_le ?_
      show max machine.deepest (machine.depth + 1) ≤ maxNesting
      omega

/-! ## Repetition -/

/-- What a repetition finds, after what was found before. -/
def gather (step : Parser (Option α)) (found : List α) : Parser (List α) := do
  return found ++ (← Parser.collect step)

theorem gather_bind (step : Parser (Option α)) (found : List α) (next : List α → Parser β) :
    gather step found >>= next = (do next (found ++ (← Parser.collect step))) :=
  bind_assoc (Parser.collect step : Parser (List α)) _ next

section Repetition

variable {step : Parser (Option α)} {state middle : State}

theorem outcome_gather_error {error : Error} (found : List α)
    (hrun : step.outcome state = (.error error, middle)) :
    (gather step found).outcome state = (.error error, middle) := by
  have hcollect : outcome (Parser.collect step) state = (.error error, middle) := by
    rw [outcome_collect_of_progress (by simp [hrun]), Parser.round, outcome_bind_error hrun]
  rw [gather, outcome_bind_error hcollect]

theorem outcome_gather_none (found : List α) (hrun : step.outcome state = (.ok none, middle)) :
    (gather step found).outcome state = (.ok found, middle) := by
  have hcollect : outcome (Parser.collect step) state = (.ok [], middle) := by
    rw [outcome_collect_of_progress (by simp [hrun]), Parser.round, outcome_bind_ok hrun]
    rfl
  rw [gather, outcome_bind_ok hcollect, List.append_nil]
  rfl

theorem outcome_gather_some {a : α} (found : List α)
    (hrun : step.outcome state = (.ok (some a), middle))
    (hprogress : middle.remaining < state.remaining) :
    (gather step found).outcome state = (gather step (found ++ [a])).outcome middle := by
  have hcollect : outcome (Parser.collect step) state =
      (do return a :: (← Parser.collect step) : Parser (List α)).outcome middle := by
    rw [outcome_collect_of_progress, Parser.round, outcome_bind_ok hrun]
    intro a' middle' hrun'
    rw [hrun] at hrun'
    cases hrun'
    exact hprogress
  rw [gather, gather]
  rcases hrest : outcome (Parser.collect step) middle with ⟨error | items, last⟩
  · rw [outcome_bind_error hrest] at hcollect
    rw [outcome_bind_error hcollect, outcome_bind_error hrest]
  · rw [outcome_bind_ok hrest] at hcollect
    rw [outcome_bind_ok hcollect, outcome_bind_ok hrest, List.append_assoc]
    rfl

variable {item : List Token → α → Prop} {stop : List Token → Prop}

/-- A repetition ends, if there are enough calls for the step and enough rounds.  The induction is
on what remains to be read, which every round but the last makes less. -/
theorem exists_collect_eq {routine : Nat → Descent (Option α)}
    (hstep : ∀ tokens, Ensures step tokens (Round item stop tokens))
    (hmatches : Matches levels routine step) (found : List α) (hvalid : machine.state.Valid)
    (hdepth : machine.depth + levels = maxNesting) :
    ∃ answer last, (∃ enough, ∀ calls rounds, enough ≤ calls → enough ≤ rounds →
        collect (routine calls) rounds found machine = some (answer, last)) ∧
      (gather step found).outcome machine.state = (answer, last.state) ∧
      Returned machine last := by
  induction hremaining : machine.state.remaining using Nat.strongRecOn
    generalizing machine found with
  | ind remaining ih =>
    obtain ⟨answer, middle, ⟨enough, hrun⟩, houtcome, hreturned⟩ := hmatches machine hvalid hdepth
    rcases answer with error | _ | a
    · refine ⟨.error error, middle, ⟨enough + 1, fun calls rounds hcalls hrounds => ?_⟩,
        outcome_gather_error found houtcome, hreturned⟩
      obtain ⟨less, rfl⟩ := Nat.exists_eq_add_one_of_ne_zero (show rounds ≠ 0 by omega)
      exact bind_eq_of_error (hrun calls (by omega)) _
    · refine ⟨.ok found, middle, ⟨enough + 1, fun calls rounds hcalls hrounds => ?_⟩,
        outcome_gather_none found houtcome, hreturned⟩
      obtain ⟨less, rfl⟩ := Nat.exists_eq_add_one_of_ne_zero (show rounds ≠ 0 by omega)
      exact bind_eq_of_ok (hrun calls (by omega)) _
    · have hround := hstep machine.state.pending machine.state hvalid rfl
      rw [outcome_eq_ok_iff.1 houtcome] at hround
      have hprogress := remaining_lt_of_round hround.1.toFollows hround.2
      obtain ⟨answer, last, ⟨enough', hrest⟩, houtcome', hreturned'⟩ :=
        ih _ (hremaining ▸ hprogress) (found ++ [a]) hreturned.follows.valid
          (hreturned.depth_eq ▸ hdepth) rfl
      refine ⟨answer, last, ⟨max enough enough' + 1, fun calls rounds hcalls hrounds => ?_⟩,
        (outcome_gather_some found houtcome hprogress).trans houtcome',
        hreturned.trans hreturned'⟩
      obtain ⟨less, rfl⟩ := Nat.exists_eq_add_one_of_ne_zero (show rounds ≠ 0 by omega)
      refine Eq.trans ?_ (hrest calls less (by omega) (by omega))
      exact bind_eq_of_ok (hrun calls (by omega)) _

/-- A repetition that goes on after what was found before. -/
theorem Matches.gather {routine : Nat → Descent (Option α)}
    (hstep : ∀ tokens, Ensures step tokens (Round item stop tokens))
    (hmatches : Matches levels routine step) (found : List α) :
    Matches levels (fun calls => Descent.collect (routine calls) calls found)
      (gather step found) := by
  intro machine hvalid hdepth
  obtain ⟨answer, last, ⟨enough, hrun⟩, houtcome, hreturned⟩ :=
    exists_collect_eq hstep hmatches found hvalid hdepth
  exact ⟨answer, last, ⟨enough, fun calls hcalls => hrun calls calls hcalls hcalls⟩, houtcome,
    hreturned⟩

/-- A repetition that begins with nothing. -/
theorem Matches.collect {routine : Nat → Descent (Option α)}
    (hstep : ∀ tokens, Ensures step tokens (Round item stop tokens))
    (hmatches : Matches levels routine step) :
    Matches levels (fun calls => Descent.collect (routine calls) calls [])
      (Parser.collect step) := by
  have hgather : Descent.gather step [] = Parser.collect step := bind_pure _
  rw [← hgather]
  exact Matches.gather hstep hmatches []

end Repetition

end Frontend.Descent
