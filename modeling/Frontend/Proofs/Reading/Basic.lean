import Frontend.Decl.Parser
import Frontend.Proofs.Grammar
import Frontend.Proofs.Pending

/-!
# The parser accepts what the grammar derives

`Parser.Reads` is the reading of one given list of tokens.  It says two things at once:
what a parser answers and leaves if the levels that it may go down are enough, and that
it fails with `nestingTooDeep` if they are not.  The condition `fits` that separates the
two cases is a conjunction along the text, so `Reads.bind` puts readings together
without a case split.

There are four groups.

* The combinators: one lemma for each step that the parsers are made of.
* The follow sets.  A variable must not be followed by a parenthesis, and a chain not
  by an operator; `EndsExpression` is what the tokens after an expression have to be.
* The parsers one by one, each given what the parser one level down reads.
* The induction over derivations.  A derivation with the largest index `top` is read by
  the parser with `levels` levels at depth `depth` exactly if `top ≤ depth + levels`.
-/

namespace Frontend.Parser

open Grammar

variable {α β : Type}

/-! ## Readings and how they combine -/

/-- On the pending `tokens` the parser answers `result` and leaves `rest` if they fit into the
levels that it may go down.  If they do not, it fails for this reason. -/
def Reads (parser : Parser α) (fits : Prop) (tokens : List Token) (result : α)
    (rest : List Token) : Prop :=
  ∀ state : State, state.Valid → state.pending = tokens →
    (fits → ∃ state', parser state = .ok result state' ∧ state'.Follows state ∧
      state'.pending = rest) ∧
    (¬fits → ∃ state', parser state = .error (.nestingTooDeep maxNesting) state')

/-- The plain form of a reading that does not depend on the levels. -/
theorem Reads.of_ok {parser : Parser α} {tokens rest : List Token} {result : α}
    (h : ∀ state : State, state.Valid → state.pending = tokens →
      ∃ state', parser state = .ok result state' ∧ state'.Follows state ∧
        state'.pending = rest) :
    Reads parser True tokens result rest :=
  fun state hvalid hpending => ⟨fun _ => h state hvalid hpending, fun hfits => absurd trivial hfits⟩

theorem Reads.congr {parser : Parser α} {fits fits' : Prop} {tokens rest : List Token}
    {result : α} (h : Reads parser fits tokens result rest) (hiff : fits' ↔ fits) :
    Reads parser fits' tokens result rest := by
  rw [propext hiff]
  exact h

/-- The tokens that are read were cut off a text, so a reading may rely on what their kinds
say. -/
theorem Reads.of_lexed {parser : Parser α} {fits : Prop} {token : Token}
    {tokens rest : List Token} {result : α}
    (h : token.Lexed → Reads parser fits (token :: tokens) result rest) :
    Reads parser fits (token :: tokens) result rest := by
  intro state hvalid hpending
  have hlexed : token.Lexed := hvalid.lexed_of_mem (by rw [hpending]; exact List.mem_cons_self)
  exact h hlexed state hvalid hpending

theorem Reads.pure (result : α) (tokens : List Token) :
    Reads (pure result) True tokens result tokens :=
  Reads.of_ok fun state hvalid hpending => ⟨state, rfl, hvalid.follows, hpending⟩

/-- Two readings one after the other.  The source fits if both parts do. -/
theorem Reads.bind {first : Parser α} {second : α → Parser β} {fits fits' : Prop}
    {tokens tokens' rest : List Token} {a : α} {b : β}
    (hfirst : Reads first fits tokens a tokens')
    (hsecond : Reads (second a) fits' tokens' b rest) :
    Reads (first >>= second) (fits ∧ fits') tokens b rest := by
  intro state hvalid hpending
  obtain ⟨hok, herror⟩ := hfirst state hvalid hpending
  by_cases hfits : fits
  · obtain ⟨state', hrun, hfollows, hpending'⟩ := hok hfits
    obtain ⟨hok', herror'⟩ := hsecond state' hfollows.valid hpending'
    have hbind : (first >>= second) state = second a state' := by
      simp [Bind.bind, EStateM.bind, hrun]
    rw [hbind]
    constructor
    · rintro ⟨-, hfits'⟩
      obtain ⟨state'', hrun', hfollows', hpending''⟩ := hok' hfits'
      exact ⟨state'', hrun', hfollows.trans hfollows', hpending''⟩
    · intro hnot
      exact herror' fun hfits' => hnot ⟨hfits, hfits'⟩
  · obtain ⟨state', hrun⟩ := herror hfits
    refine ⟨fun hboth => absurd hboth.1 hfits, fun _ => ⟨state', ?_⟩⟩
    simp [Bind.bind, EStateM.bind, hrun]

/-- A reading after a step that always succeeds. -/
theorem Reads.sure_bind {first : Parser α} {second : α → Parser β} {fits : Prop}
    {tokens tokens' rest : List Token} {a : α} {b : β}
    (hfirst : Reads first True tokens a tokens')
    (hsecond : Reads (second a) fits tokens' b rest) :
    Reads (first >>= second) fits tokens b rest :=
  (hfirst.bind hsecond).congr (true_and fits).symm.to_iff

/-- A reading before a step that always succeeds. -/
theorem Reads.bind_sure {first : Parser α} {second : α → Parser β} {fits : Prop}
    {tokens tokens' rest : List Token} {a : α} {b : β}
    (hfirst : Reads first fits tokens a tokens')
    (hsecond : Reads (second a) True tokens' b rest) :
    Reads (first >>= second) fits tokens b rest :=
  (hfirst.bind hsecond).congr (and_true fits).symm.to_iff

/-- A reading whose answer is put into another form. -/
theorem Reads.bind_pure {parser : Parser α} {fits : Prop} {tokens rest : List Token} {a : α}
    (h : Reads parser fits tokens a rest) (f : α → β) :
    Reads (parser >>= fun a => Pure.pure (f a)) fits tokens (f a) rest :=
  h.bind_sure (Reads.pure (f a) rest)

theorem Reads.discard {parser : Parser α} {fits : Prop} {tokens rest : List Token} {a : α}
    (h : Reads parser fits tokens a rest) :
    Reads (Functor.discard parser) fits tokens () rest :=
  h.bind_pure fun _ => ()

/-- Looking at the current token passes over nothing. -/
theorem Reads.current_bind {second : Token → Parser β} {fits : Prop} {tokens rest : List Token}
    {b : β} (h : Reads (second (tokens.headD .eof)) fits tokens b rest) :
    Reads (current >>= second) fits tokens b rest := by
  intro state hvalid hpending
  have hbind : (current >>= second) state = second (tokens.headD .eof) state := by
    rw [← hpending, ← hvalid.current_eq]
    rfl
  rw [hbind]
  exact h state hvalid hpending

theorem Reads.current_cons_bind {second : Token → Parser β} {fits : Prop} {token : Token}
    {tokens rest : List Token} {b : β} (h : Reads (second token) fits (token :: tokens) b rest) :
    Reads (current >>= second) fits (token :: tokens) b rest :=
  Reads.current_bind h

theorem Reads.advance (token : Token) (tokens : List Token) :
    Reads advance True (token :: tokens) token tokens := by
  refine Reads.of_ok fun state hvalid hpending => ?_
  refine ⟨state.advance, ?_, hvalid.follows_advance, ?_⟩
  · have hcurrent : state.current = token := by
      rw [hvalid.current_eq, hpending]
      rfl
    rw [← hcurrent]
    rfl
  · rw [hvalid.pending_advance, hpending, List.tail_cons]

theorem Reads.expect {kind : Token.Kind} {token : Token} (hkind : token.kind = kind)
    (expected : String) (tokens : List Token) :
    Reads (expect kind expected) True (token :: tokens) token tokens := by
  refine Reads.current_cons_bind ?_
  rw [if_pos hkind]
  exact Reads.advance token tokens

theorem Reads.expectMisc (text : String) (tokens : List Token) :
    Reads (expectMisc text) True (punct text :: tokens) (punct text) tokens := by
  refine Reads.current_cons_bind ?_
  rw [if_pos (by simp)]
  exact Reads.advance (punct text) tokens

theorem Reads.record (event : Event) (tokens : List Token) :
    Reads (record event) True tokens () tokens :=
  Reads.of_ok fun _ hvalid hpending => ⟨_, rfl, hvalid.follows_log _, hpending⟩

/-- One level down there is one level less, and without a level nothing fits. -/
theorem Reads.nested {parser : Nat → Parser α} {depth top : Nat} {tokens rest : List Token}
    {result : α} (levels : Nat) (hdepth : depth + 1 ≤ top)
    (h : ∀ levels, Reads (parser levels) (top ≤ depth + 1 + levels) tokens result rest) :
    Reads (nested parser levels) (top ≤ depth + levels) tokens result rest := by
  cases levels with
  | zero =>
    intro state _ _
    exact ⟨fun hfits => absurd hfits (by omega), fun _ => ⟨state, rfl⟩⟩
  | succ levels => exact (h levels).congr (by omega)

/-! ## Repetition -/

/-- The end of a repetition. -/
theorem Reads.collect_nil {step : Parser (Option α)} {rest : List Token}
    (hstep : Reads step True rest none rest) : Reads (collect step) True rest [] rest := by
  refine Reads.of_ok fun state hvalid hpending => ?_
  obtain ⟨state', hrun, hfollows, hpending'⟩ := (hstep state hvalid hpending).1 trivial
  refine ⟨state', ?_, hfollows, hpending'⟩
  rw [collect, hrun]

/-- One round of a repetition.  It passes over a token, so the repetition goes on. -/
theorem Reads.collect_cons {step : Parser (Option α)} {fits fits' : Prop}
    {tokens tokens' rest : List Token} {item : α} {items : List α}
    (hstep : Reads step fits (tokens ++ tokens') (some item) tokens') (htokens : tokens ≠ [])
    (hsteps : Reads (collect step) fits' tokens' items rest) :
    Reads (collect step) (fits ∧ fits') (tokens ++ tokens') (item :: items) rest := by
  intro state hvalid hpending
  obtain ⟨hok, herror⟩ := hstep state hvalid hpending
  by_cases hfits : fits
  · obtain ⟨state', hrun, hfollows, hpending'⟩ := hok hfits
    have hprogress : state'.remaining < state.remaining := by
      have hpos := List.length_pos_iff.2 htokens
      refine hfollows.remaining_lt ?_
      rw [hpending, hpending', List.length_append]
      omega
    obtain ⟨hok', herror'⟩ := hsteps state' hfollows.valid hpending'
    constructor
    · rintro ⟨-, hfits'⟩
      obtain ⟨state'', hrun', hfollows', hpending''⟩ := hok' hfits'
      refine ⟨state'', ?_, hfollows.trans hfollows', hpending''⟩
      rw [collect, hrun]
      simp only [if_pos hprogress, hrun']
    · intro hnot
      obtain ⟨state'', hrun'⟩ := herror' fun hfits' => hnot ⟨hfits, hfits'⟩
      refine ⟨state'', ?_⟩
      rw [collect, hrun]
      simp only [if_pos hprogress, hrun']
  · obtain ⟨state', hrun⟩ := herror hfits
    refine ⟨fun hboth => absurd hboth.1 hfits, fun _ => ⟨state', ?_⟩⟩
    rw [collect, hrun]

end Frontend.Parser
