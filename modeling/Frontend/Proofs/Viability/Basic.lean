import Frontend.Proofs.Deriving.Basic

/-!
# Unexpected tokens

`Parser.Viable` is the contract of a parser that meets a token it does not expect.  The tokens
that it has passed over until then are not to blame: with some more behind them they meet a
goal.  The goal of a parser of the grammar is a whole derivation (`Parser.Completes`).

The combinators execute a parser forward over the token list, as those of `Parser.Ensures` do.
A token that is passed over moves from the list into the goal.  Wherever a parser can fail, a
premise asks for a completion of what it has passed over; where the parser is a part of another
one, a second completion goes on from there.
-/

namespace Frontend.Parser

open Grammar

variable {α β : Type}

/-! ## Completion -/

/-- A name to fill in. -/
def filler : Token := ⟨.identifier, "x"⟩

/-- The tokens that are used to complete what was broken off. -/
def fillers : List Token :=
  [filler, ⟨.kwIf, "if"⟩, ⟨.kwElse, "else"⟩, punct "(", punct ")", punct ":", punct "\x7b",
    punct "\x7d"]

/-- The tokens meet the goal with some fillers behind them. -/
def Completable (goal : List Token → Prop) (used : List Token) : Prop :=
  ∃ more, (∀ token ∈ more, token ∈ fillers) ∧ goal (used ++ more)

namespace Completable

variable {goal goal' : List Token → Prop} {used : List Token}

theorem of_goal (hgoal : goal used) : Completable goal used :=
  ⟨[], List.forall_mem_nil _, (List.append_nil used).symm ▸ hgoal⟩

/-- A goal that is met is completed to another one. -/
theorem trans (hcompletable : Completable goal used)
    (hopen : ∀ used, goal used → Completable goal' used) : Completable goal' used := by
  obtain ⟨more, hmore, hgoal⟩ := hcompletable
  obtain ⟨more', hmore', hgoal'⟩ := hopen _ hgoal
  refine ⟨more ++ more', List.forall_mem_append.2 ⟨hmore, hmore'⟩, ?_⟩
  rwa [← List.append_assoc]

/-- Tokens at the front can stand in the goal as well. -/
theorem append_iff {used' : List Token} :
    Completable (fun more => goal (used ++ more)) used' ↔ Completable goal (used ++ used') := by
  simp only [Completable, List.append_assoc]

end Completable

/-! ## Steps -/

/-- If the parser, on the pending `tokens`, fails at an unexpected token, then it names this token,
and those that it has passed over can be completed to the goal. -/
def Viable (parser : Parser α) (tokens : List Token) (goal : List Token → Prop) : Prop :=
  ∀ state : State, state.Valid → state.pending = tokens → ∀ expected found state',
    parser state = .error (.unexpectedToken expected found) state' →
    found = state'.current.describe ∧
      ∃ used, tokens = used ++ state'.pending ∧ Completable goal used

namespace Viable

variable {tokens : List Token} {goal goal' : List Token → Prop}

theorem open_goal {parser : Parser α} (h : Viable parser tokens goal)
    (hopen : ∀ used, goal used → Completable goal' used) : Viable parser tokens goal' := by
  intro state hvalid hpending expected found state' hrun
  obtain ⟨hfound, used, hused, hcompletable⟩ := h state hvalid hpending expected found state' hrun
  exact ⟨hfound, used, hused, hcompletable.trans hopen⟩

theorem pure (a : α) : Viable (pure a) tokens goal := by
  intro state _ _ expected found state' hrun
  cases hrun

/-- Other errors are not the matter of this contract. -/
theorem throw {error : Error} (herror : ∀ expected found, error ≠ .unexpectedToken expected found) :
    Viable (throw error : Parser α) tokens goal := by
  intro state _ _ expected found state' hrun
  cases hrun
  exact absurd rfl (herror expected found)

theorem current_bind {second : Token → Parser β}
    (h : Viable (second (tokens.headD .eof)) tokens goal) :
    Viable (current >>= second) tokens goal := by
  intro state hvalid hpending
  have hbind : (current >>= second) state = second (tokens.headD .eof) state := by
    rw [← hpending, ← hvalid.current_eq]
    rfl
  rw [hbind]
  exact h state hvalid hpending

/-- The parser fails here, so here the tokens have to be completed. -/
theorem unexpected (hopen : Completable goal []) (expected : String) :
    Viable (unexpected expected : Parser α) tokens goal := by
  intro state _ hpending expected' found state' hrun
  cases hrun
  exact ⟨rfl, [], hpending.symm, hopen⟩

/-- A run goes on from what its first part leaves. -/
theorem bind {first : Parser α} {second : α → Parser β} {post : α → List Token → Prop}
    (hensures : Ensures first tokens post) (hfirst : Viable first tokens goal)
    (hsecond : ∀ a rest, post a rest → ∃ used, tokens = used ++ rest ∧
      Viable (second a) rest fun more => goal (used ++ more)) :
    Viable (first >>= second) tokens goal := by
  intro state hvalid hpending expected found state' hrun
  have hrun' := hensures state hvalid hpending
  simp only [Bind.bind, EStateM.bind] at hrun
  cases heq : first state with
  | error error middle =>
    rw [heq] at hrun
    cases hrun
    exact hfirst state hvalid hpending _ _ _ heq
  | ok a middle =>
    rw [heq] at hrun hrun'
    obtain ⟨hcontinues, hpost⟩ := hrun'
    obtain ⟨used, hused, hviable⟩ := hsecond a _ hpost
    obtain ⟨hfound, used', hused', hcompletable⟩ :=
      hviable middle hcontinues.valid rfl expected found state' hrun
    refine ⟨hfound, used ++ used', ?_, Completable.append_iff.1 hcompletable⟩
    rw [hused, hused', List.append_assoc]

/-- What comes after the first part cannot fail. -/
theorem bind_sure {first : Parser α} {second : α → Parser β} (hfirst : Viable first tokens goal)
    (hsecond : ∀ a state, ∃ b state', second a state = .ok b state') :
    Viable (first >>= second) tokens goal := by
  intro state hvalid hpending expected found state' hrun
  simp only [Bind.bind, EStateM.bind] at hrun
  cases heq : first state with
  | error error middle =>
    rw [heq] at hrun
    cases hrun
    exact hfirst state hvalid hpending _ _ _ heq
  | ok a middle =>
    obtain ⟨b, last, hlast⟩ := hsecond a middle
    rw [heq] at hrun
    cases hlast.symm.trans hrun

theorem bind_pure {first : Parser α} (hfirst : Viable first tokens goal) (f : α → β) :
    Viable (first >>= fun a => Pure.pure (f a)) tokens goal :=
  bind_sure hfirst fun _ _ => ⟨_, _, rfl⟩

theorem unexpected_bind {second : α → Parser β} (hopen : Completable goal []) (expected : String) :
    Viable (Parser.unexpected expected >>= second) tokens goal := by
  have hfail : Ensures (Parser.unexpected expected : Parser α) tokens fun _ _ => False :=
    Ensures.unexpected expected
  exact bind hfail (unexpected hopen expected) fun _ _ hfalse => hfalse.elim

theorem discard {parser : Parser α} (h : Viable parser tokens goal) :
    Viable (Functor.discard parser) tokens goal :=
  bind_pure h fun _ => ()

theorem advance : Viable advance tokens goal := by
  intro state _ _ expected found state' hrun
  cases hrun

theorem advance_bind {first : Token} {second : Token → Parser β}
    (hsecond : Viable (second first) tokens fun more => goal (first :: more)) :
    Viable (Parser.advance >>= second) (first :: tokens) goal := by
  refine bind (Ensures.advance first tokens) advance fun token rest hpost => ?_
  obtain ⟨rfl, rfl⟩ := hpost
  exact ⟨[token], rfl, hsecond⟩

theorem discard_advance_bind {first : Token} {second : Unit → Parser β}
    (hsecond : Viable (second ()) tokens fun more => goal (first :: more)) :
    Viable (Functor.discard Parser.advance >>= second) (first :: tokens) goal := by
  refine bind (Ensures.discard_advance first tokens) advance.discard fun _ rest hrest => ?_
  subst hrest
  exact ⟨[first], rfl, hsecond⟩

theorem expect {kind : Token.Kind} (hopen : Completable goal []) (expected : String) :
    Viable (expect kind expected) tokens goal := by
  refine current_bind ?_
  split
  · exact advance
  · exact unexpected hopen expected

theorem expect_bind {kind : Token.Kind} {second : Token → Parser β} {expected : String}
    (hkind : kind ≠ .eof) (hopen : Completable goal [])
    (hsecond : ∀ token rest, token.kind = kind →
      Viable (second token) rest fun more => goal (token :: more)) :
    Viable (Parser.expect kind expected >>= second) tokens goal := by
  refine bind (Ensures.expect hkind expected tokens) (expect hopen expected) ?_
  rintro token rest ⟨rfl, htoken⟩
  exact ⟨[token], rfl, hsecond token rest htoken⟩

theorem discard_expect_bind {kind : Token.Kind} {second : Unit → Parser β} {expected : String}
    (hkind : kind ≠ .eof) (hopen : Completable goal [])
    (hsecond : ∀ token rest, token.kind = kind →
      Viable (second ()) rest fun more => goal (token :: more)) :
    Viable (Functor.discard (Parser.expect kind expected) >>= second) tokens goal := by
  refine bind (Ensures.discard_expect hkind expected tokens) (expect hopen expected).discard ?_
  rintro _ rest ⟨token, rfl, htoken⟩
  exact ⟨[token], rfl, hsecond token rest htoken⟩

theorem expectMisc {text : String} (hopen : Completable goal []) :
    Viable (expectMisc text) tokens goal := by
  refine current_bind ?_
  split
  · exact advance
  · exact unexpected hopen text

theorem discard_expectMisc_bind {text : String} {second : Unit → Parser β}
    (hopen : Completable goal [])
    (hsecond : ∀ rest, Viable (second ()) rest fun more => goal (punct text :: more)) :
    Viable (Functor.discard (Parser.expectMisc text) >>= second) tokens goal := by
  refine bind (Ensures.discard (Ensures.expectMisc text tokens)) (expectMisc hopen).discard ?_
  intro _ rest hrest
  exact ⟨[punct text], hrest, hsecond rest⟩

/-! ## Repetition -/

/-- One item and no others behind it. -/
theorem exists_items {items : List Token → List α → Prop} {used : List Token} {a : α}
    (has : items (used ++ []) [a]) : ∃ as, items used as :=
  ⟨[a], List.append_nil used ▸ has⟩

/-- A repetition is broken off in one of its rounds.  The items before it, together with those to
which the round can be completed, are again a list of items, and it is from there that the goal
must be within reach.  The induction is on what remains to be read. -/
theorem collect {step : Parser (Option α)} {item : List Token → α → Prop}
    {stop : List Token → Prop} (items : List Token → List α → Prop)
    (hcons : ∀ {used used' : List Token} {a : α} {as : List α},
      item used a → items used' as → items (used ++ used') (a :: as))
    (hstep : ∀ tokens, Ensures step tokens (Round item stop tokens))
    (hround : ∀ tokens, Viable step tokens fun used => ∃ as, items used as)
    (hopen : ∀ used as, items used as → Completable goal used) :
    Viable (collect step) tokens goal := by
  intro state hvalid hpending expected found state' hrun
  induction hremaining : state.remaining using Nat.strongRecOn generalizing state tokens goal with
  | ind remaining ih =>
    have hrun' := hstep tokens state hvalid hpending
    rw [Parser.collect] at hrun
    cases heq : step state with
    | error error middle =>
      rw [heq] at hrun
      cases hrun
      have hitems : Viable step tokens goal := by
        refine (hround tokens).open_goal fun used hitems => ?_
        obtain ⟨as, has⟩ := hitems
        exact hopen used as has
      exact hitems state hvalid hpending _ _ _ heq
    | ok answer middle =>
      rw [heq] at hrun hrun'
      obtain ⟨hcontinues, hfound⟩ := hrun'
      cases answer with
      | none => cases hrun
      | some a =>
        have hprogress : middle.remaining < state.remaining :=
          remaining_lt_of_round hcontinues.toFollows (hpending ▸ hfound)
        obtain ⟨used, -, htokens, hitem⟩ := hfound
        have hopen' (used' : List Token) (as : List α) (has : items used' as) :
            Completable (fun more => goal (used ++ more)) used' :=
          Completable.append_iff.2 (hopen _ _ (hcons hitem has))
        simp only [if_pos hprogress] at hrun
        cases heq' : Parser.collect step middle with
        | ok as last =>
          rw [heq'] at hrun
          cases hrun
        | error error last =>
          rw [heq'] at hrun
          cases hrun
          obtain ⟨hname, used', hused', hcompletable⟩ :=
            ih _ (hremaining ▸ hprogress) hopen' middle hcontinues.valid rfl heq' rfl
          refine ⟨hname, used ++ used', ?_, Completable.append_iff.1 hcompletable⟩
          rw [htokens, hused', List.append_assoc]

theorem collect_bind {step : Parser (Option α)} {second : List α → Parser β}
    {item : List Token → α → Prop} {stop : List Token → Prop}
    (items : List Token → List α → Prop) (hnil : items [] [])
    (hcons : ∀ {used used' : List Token} {a : α} {as : List α},
      item used a → items used' as → items (used ++ used') (a :: as))
    (hstep : ∀ tokens, Ensures step tokens (Round item stop tokens))
    (hround : ∀ tokens, Viable step tokens fun used => ∃ as, items used as)
    (hopen : ∀ used as, items used as → Completable goal used)
    (hsecond : ∀ used as rest, items used as → stop rest →
      Viable (second as) rest fun more => goal (used ++ more)) :
    Viable (Parser.collect step >>= second) tokens goal := by
  refine bind (Ensures.collect items hnil hcons hstep tokens)
    (collect items hcons hstep hround hopen) ?_
  rintro as rest ⟨hstop, used, rfl, has⟩
  exact ⟨used, rfl, hsecond used as rest has hstop⟩

end Viable

/-! ## Derivations -/

/-- Whatever the pending tokens are, those that were passed over before an unexpected one can be
completed to tokens that derive something. -/
def Completes (parser : Parser α) (item : List Token → α → Prop) : Prop :=
  ∀ tokens, Viable parser tokens fun used => ∃ a, item used a

theorem Completes.open_goal {parser : Parser α} {item : List Token → α → Prop}
    (h : Completes parser item) {tokens : List Token} {goal : List Token → Prop}
    (hopen : ∀ used a, item used a → Completable goal used) : Viable parser tokens goal := by
  refine (h tokens).open_goal fun used hitem => ?_
  obtain ⟨a, ha⟩ := hitem
  exact hopen used a ha

/-- A part that derives something, and what comes after it. -/
theorem Completes.bind {first : Parser α} {second : α → Parser β}
    {item : List Token → α → Prop} (hfirst : Completes first item)
    (hensures : ∀ tokens, Ensures first tokens fun a rest =>
      ∃ used, tokens = used ++ rest ∧ item used a)
    {tokens : List Token} {goal : List Token → Prop}
    (hopen : ∀ used a, item used a → Completable goal used)
    (hsecond : ∀ used a rest, item used a →
      Viable (second a) rest fun more => goal (used ++ more)) :
    Viable (first >>= second) tokens goal := by
  refine Viable.bind (hensures tokens) (hfirst.open_goal hopen) ?_
  rintro a rest ⟨used, rfl, ha⟩
  exact ⟨used, rfl, hsecond used a rest ha⟩

theorem Derives.within {parser : Parser α} {rule : Nat → List Token → α → Prop} {bound : Nat}
    (hderives : Derives parser rule bound) (tokens : List Token) :
    Ensures parser tokens fun a rest =>
      ∃ used, tokens = used ++ rest ∧ Within rule bound used a := by
  refine (hderives tokens).imp fun a rest hpost => ?_
  obtain ⟨top, used, hused, htop, ha⟩ := hpost
  exact ⟨used, hused, top, htop, ha⟩

end Frontend.Parser
