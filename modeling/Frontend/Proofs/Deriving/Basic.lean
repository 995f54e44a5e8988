import Frontend.Proofs.Grammar
import Frontend.Proofs.Pending

/-!
# What every run of a parser ensures

`Parser.Ensures` is the contract of a parser on a list of pending tokens.  A run ends
on a later state of the same source and has fetched the tokens up to there; if it succeeds,
its answer and the tokens that are left meet a postcondition, and if it fails, the error is
one of syntax.

The combinators execute a parser forward over the token list.  A step that looks at the
current token turns into a case split on the list, and a step that passes over a token
takes it off the list.

`Parser.Derives` is the contract of the parsers of the grammar: the tokens that a
successful run has passed over derive its answer, with no index above a bound.
-/

namespace Frontend.Parser

open Grammar

variable {α β : Type}

/-- On the pending `tokens` the parser either fails with a syntax error or gives an answer and
leaves tokens that meet `post`. -/
def Ensures (parser : Parser α) (tokens : List Token) (post : α → List Token → Prop) : Prop :=
  ∀ state : State, state.Valid → state.pending = tokens →
    match parser state with
    | .ok result state' => state'.Continues state ∧ post result state'.pending
    | .error error state' => state'.Continues state ∧ error.category = .malformed

/-! ## Steps -/

theorem Ensures.imp {parser : Parser α} {tokens : List Token} {post post' : α → List Token → Prop}
    (h : Ensures parser tokens post) (himp : ∀ a rest, post a rest → post' a rest) :
    Ensures parser tokens post' := by
  intro state hvalid hpending
  have hrun := h state hvalid hpending
  cases heq : parser state with
  | ok a state' =>
    rw [heq] at hrun
    exact ⟨hrun.1, himp _ _ hrun.2⟩
  | error error state' =>
    rw [heq] at hrun
    exact hrun

theorem Ensures.pure {tokens : List Token} {post : α → List Token → Prop} {a : α}
    (h : post a tokens) : Ensures (pure a) tokens post := by
  intro state hvalid hpending
  subst hpending
  exact ⟨hvalid.continues, h⟩

theorem Ensures.pure_bind {second : α → Parser β} {tokens : List Token}
    {post : β → List Token → Prop} {a : α} (h : Ensures (second a) tokens post) :
    Ensures (Pure.pure a >>= second) tokens post :=
  h

/-- A run goes on from what its first part leaves. -/
theorem Ensures.bind {first : Parser α} {second : α → Parser β} {tokens : List Token}
    {post : α → List Token → Prop} {post' : β → List Token → Prop}
    (hfirst : Ensures first tokens post)
    (hsecond : ∀ a rest, post a rest → Ensures (second a) rest post') :
    Ensures (first >>= second) tokens post' := by
  intro state hvalid hpending
  have hrun := hfirst state hvalid hpending
  cases heq : first state with
  | error error state' =>
    have hbind : (first >>= second) state = .error error state' := by
      simp [Bind.bind, EStateM.bind, heq]
    rw [heq] at hrun
    rw [hbind]
    exact hrun
  | ok a state' =>
    rw [heq] at hrun
    obtain ⟨hcontinues, hpost⟩ := hrun
    have hbind : (first >>= second) state = second a state' := by
      simp [Bind.bind, EStateM.bind, heq]
    have hrun' := hsecond a _ hpost state' hcontinues.valid rfl
    rw [hbind]
    cases heq' : second a state' with
    | ok b state'' =>
      rw [heq'] at hrun'
      exact ⟨hcontinues.trans hrun'.1, hrun'.2⟩
    | error error state'' =>
      rw [heq'] at hrun'
      exact ⟨hcontinues.trans hrun'.1, hrun'.2⟩

/-- A syntax error meets every contract. -/
theorem Ensures.throw {tokens : List Token} {post : α → List Token → Prop} {error : Error}
    (hcategory : error.category = .malformed) :
    Ensures (throw error : Parser α) tokens post :=
  fun _ hvalid _ => ⟨hvalid.continues, hcategory⟩

theorem Ensures.current_bind {second : Token → Parser β} {tokens : List Token}
    {post : β → List Token → Prop} (h : Ensures (second (tokens.headD .eof)) tokens post) :
    Ensures (current >>= second) tokens post := by
  intro state hvalid hpending
  have hbind : (current >>= second) state = second (tokens.headD .eof) state := by
    rw [← hpending, ← hvalid.current_eq]
    rfl
  rw [hbind]
  exact h state hvalid hpending

theorem Ensures.unexpected {tokens : List Token} {post : α → List Token → Prop}
    (expected : String) : Ensures (unexpected expected : Parser α) tokens post :=
  Ensures.current_bind (Ensures.throw rfl)

/-- After a failure nothing more is run. -/
theorem Ensures.unexpected_bind {second : α → Parser β} {tokens : List Token}
    {post : β → List Token → Prop} (expected : String) :
    Ensures (Parser.unexpected expected >>= second) tokens post := by
  have hfail : Ensures (Parser.unexpected expected : Parser α) tokens fun _ _ => False :=
    Ensures.unexpected expected
  exact hfail.bind fun _ _ hfalse => hfalse.elim

/-- A token is passed over, which must not be `eof`. -/
theorem Ensures.advance (first : Token) (tokens : List Token) :
    Ensures advance (first :: tokens) fun token rest => token = first ∧ rest = tokens := by
  intro state hvalid hpending
  have hne : state.pending ≠ [] := hpending ▸ List.cons_ne_nil first tokens
  have hcurrent : state.current = first := by
    rw [hvalid.current_eq, hpending, List.headD_cons]
  have hadvance : state.advance.pending = tokens := by
    rw [hvalid.pending_advance, hpending, List.tail_cons]
  exact ⟨hvalid.continues_advance hne, hcurrent, hadvance⟩

theorem Ensures.expect {kind : Token.Kind} (hkind : kind ≠ .eof) (expected : String)
    (tokens : List Token) :
    Ensures (expect kind expected) tokens fun token rest =>
      tokens = token :: rest ∧ token.kind = kind := by
  refine Ensures.current_bind ?_
  split
  · rename_i heq
    cases tokens with
    | nil => exact absurd heq.symm hkind
    | cons first tokens =>
      refine (Ensures.advance first tokens).imp fun token rest hpost => ?_
      obtain ⟨rfl, rfl⟩ := hpost
      exact ⟨rfl, heq⟩
  · exact Ensures.unexpected expected

/-- Punctuation in front is a token of the list. -/
theorem exists_of_isMisc {tokens : List Token} {text : String}
    (hmisc : (tokens.headD .eof).isMisc text = true) : ∃ rest, tokens = punct text :: rest := by
  cases tokens with
  | nil => simp [Token.isMisc, Token.eof] at hmisc
  | cons token rest =>
    obtain ⟨hkind, htext⟩ : token.kind = .misc ∧ token.text = text := by
      simpa [Token.isMisc] using hmisc
    subst htext
    cases token
    subst hkind
    exact ⟨rest, rfl⟩

theorem Ensures.expectMisc (text : String) (tokens : List Token) :
    Ensures (expectMisc text) tokens fun _ rest => tokens = punct text :: rest := by
  refine Ensures.current_bind ?_
  split
  · rename_i hmisc
    obtain ⟨rest, rfl⟩ := exists_of_isMisc hmisc
    refine (Ensures.advance _ rest).imp fun token rest' hpost => ?_
    rw [hpost.2]
  · exact Ensures.unexpected text

theorem Ensures.discard {parser : Parser α} {tokens : List Token} {post : List Token → Prop}
    (h : Ensures parser tokens fun _ rest => post rest) :
    Ensures (Functor.discard parser) tokens fun _ rest => post rest :=
  h.bind fun _ _ hpost => Ensures.pure hpost

theorem Ensures.discard_advance (token : Token) (tokens : List Token) :
    Ensures (Functor.discard Parser.advance) (token :: tokens) fun _ rest => rest = tokens :=
  Ensures.discard ((Ensures.advance token tokens).imp fun _ _ hpost => hpost.2)

theorem Ensures.discard_expect {kind : Token.Kind} (hkind : kind ≠ .eof) (expected : String)
    (tokens : List Token) :
    Ensures (Functor.discard (Parser.expect kind expected)) tokens fun _ rest =>
      ∃ token, tokens = token :: rest ∧ token.kind = kind :=
  Ensures.discard ((Ensures.expect hkind expected tokens).imp fun token _ hpost => ⟨token, hpost⟩)

theorem Ensures.record {event : Event} (hevent : event.token? = none) (tokens : List Token) :
    Ensures (record event) tokens fun _ rest => rest = tokens := by
  intro state hvalid hpending
  exact ⟨hvalid.continues_record hevent, hpending⟩

/-! ## Repetition -/

/-- The contract of one round: it ends the repetition and passes over nothing, or it passes
over tokens that belong to an item. -/
def Round (item : List Token → α → Prop) (stop : List Token → Prop) (tokens : List Token) :
    Option α → List Token → Prop
  | none, rest => rest = tokens ∧ stop tokens
  | some a, rest => ∃ used, used ≠ [] ∧ tokens = used ++ rest ∧ item used a

/-- A round that finds something leaves less to be read. -/
theorem remaining_lt_of_round {item : List Token → α → Prop} {stop : List Token → Prop}
    {state state' : State} {a : α} (hfollows : state'.Follows state)
    (hround : Round item stop state.pending (some a) state'.pending) :
    state'.remaining < state.remaining := by
  obtain ⟨used, hused, htokens, -⟩ := hround
  have hpos := List.length_pos_iff.2 hused
  refine hfollows.remaining_lt ?_
  rw [htokens, List.length_append]
  omega

/-- A repetition passes over the tokens of a list of items and stops where a round does.  The
induction is on what remains to be read, which every item makes less. -/
theorem Ensures.collect {step : Parser (Option α)} {item : List Token → α → Prop}
    {stop : List Token → Prop} (items : List Token → List α → Prop) (hnil : items [] [])
    (hcons : ∀ {used used' : List Token} {a : α} {as : List α},
      item used a → items used' as → items (used ++ used') (a :: as))
    (hstep : ∀ tokens, Ensures step tokens (Round item stop tokens)) (tokens : List Token) :
    Ensures (collect step) tokens fun as rest =>
      stop rest ∧ ∃ used, tokens = used ++ rest ∧ items used as := by
  intro state hvalid hpending
  induction hremaining : state.remaining using Nat.strongRecOn generalizing state tokens with
  | ind remaining ih =>
    have hrun := hstep tokens state hvalid hpending
    rw [Parser.collect]
    cases heq : step state with
    | error error state' =>
      rw [heq] at hrun
      exact hrun
    | ok answer state' =>
      rw [heq] at hrun
      obtain ⟨hcontinues, hround⟩ := hrun
      cases answer with
      | none =>
        obtain ⟨hrest, hstop⟩ := hround
        refine ⟨hcontinues, ?_, [], ?_, hnil⟩
        · rw [hrest]
          exact hstop
        · rw [hrest, List.nil_append]
      | some a =>
        have hprogress : state'.remaining < state.remaining :=
          remaining_lt_of_round hcontinues.toFollows (hpending ▸ hround)
        obtain ⟨used, -, htokens, hitem⟩ := hround
        have hrun' := ih _ (hremaining ▸ hprogress) state'.pending state' hcontinues.valid rfl rfl
        simp only [if_pos hprogress]
        cases heq' : Parser.collect step state' with
        | error error state'' =>
          rw [heq'] at hrun'
          exact ⟨hcontinues.trans hrun'.1, hrun'.2⟩
        | ok as state'' =>
          rw [heq'] at hrun'
          obtain ⟨hcontinues', hstop, used', htokens', hitems⟩ := hrun'
          refine ⟨hcontinues.trans hcontinues', hstop, used ++ used', ?_, hcons hitem hitems⟩
          rw [htokens, htokens', List.append_assoc]

/-! ## Derivations -/

/-- The tokens derive the tree, with no index above the bound. -/
def Within (rule : Nat → List Token → α → Prop) (bound : Nat) (used : List Token) (a : α) : Prop :=
  ∃ top, top ≤ bound ∧ rule top used a

/-- Whatever the pending tokens are, those that a successful run passes over derive its answer,
and no index of the derivation exceeds the bound. -/
def Derives (parser : Parser α) (rule : Nat → List Token → α → Prop) (bound : Nat) : Prop :=
  ∀ tokens, Ensures parser tokens fun a rest =>
    ∃ top used, tokens = used ++ rest ∧ top ≤ bound ∧ rule top used a

end Frontend.Parser
