import Frontend.Parser.Basic
import Frontend.Proofs.Words

/-!
# The tokens that a parser has before it

A parser state holds one token and the characters after it.  What a parser can see of
it is a list of tokens: `State.pending`, the current token followed by the words of
the unread characters.  The end of the source is the empty list.

There are three groups.

* The states.  `State.Valid` says that a state on `eof` has nothing left to read, and
  that the current token was cut off a text.  Every state that a parser meets is valid,
  and on valid states `State.advance` drops the first pending token.
* Progress.  `State.Follows` relates a state to one further on in the same source.
  Fewer pending tokens then means fewer characters, which is what the repetition
  `Parser.collect` counts.
* Fetching.  `State.Continues` says in addition what was fetched on the way.  The tokens
  fetched so far and those still to come make up a stream, which does not change as long as
  no parser moves on from `eof`.
-/

namespace Frontend

/-- The token that the event tells of. -/
def Event.token? : Event → Option Token
  | .lexed token => some token
  | _ => none

namespace Parser.State

/-! ## The pending tokens of a state -/

/-- The tokens from the current one on, without the `eof` at their end. -/
def pending (state : State) : List Token :=
  if state.current.kind = .eof then [] else state.current :: Token.words state.unread

/-- A state on `eof` has read everything, and any other has a token that was cut off a text. -/
structure Valid (state : State) : Prop where
  of_eof : state.current.kind = .eof → state.current = .eof ∧ state.unread = []
  lexed : state.current.Lexed

theorem pending_eq_nil_iff {state : State} :
    state.pending = [] ↔ state.current.kind = .eof := by
  unfold pending
  split <;> simp_all

/-- The current token is the first pending one, or `eof` if there is none. -/
theorem Valid.current_eq {state : State} (hvalid : state.Valid) :
    state.current = state.pending.headD .eof := by
  unfold pending
  split
  · rename_i heof
    exact (hvalid.of_eof heof).1
  · rfl

theorem Valid.pending_eq_nil {state : State} (hvalid : state.Valid)
    (heof : (state.pending.headD .eof).kind = .eof) : state.pending = [] := by
  rw [pending_eq_nil_iff, hvalid.current_eq]
  exact heof

/-- The pending tokens were all cut off a text. -/
theorem Valid.lexed_of_mem {state : State} (hvalid : state.Valid) {token : Token}
    (hmem : token ∈ state.pending) : token.Lexed := by
  unfold pending at hmem
  split at hmem
  · cases hmem
  · rcases List.mem_cons.1 hmem with rfl | hmem
    · exact hvalid.lexed
    · exact Token.lexed_of_mem_words hmem

/-- The state on the first token of a text shows the words of the text.  What the log holds
makes no difference. -/
theorem next_valid_pending (cs : List Char) (log : Array Event) :
    let state : State := ⟨(Token.next cs).1, (Token.next cs).2, log⟩
    state.Valid ∧ state.pending = Token.words cs := by
  intro state
  rcases hskip : Token.skipGap cs with _ | ⟨c, rest⟩
  · have hstate : state = ⟨.eof, [], log⟩ := by simp [state, Token.next, hskip]
    rw [Token.words_of_skipGap_nil hskip, hstate]
    exact ⟨⟨fun _ => ⟨rfl, rfl⟩, trivial⟩, rfl⟩
  · have hstate : state = ⟨(Token.cut c rest).1, (Token.cut c rest).2, log⟩ := by
      simp [state, Token.next, hskip]
    have hkind := Token.kind_cut_ne_eof c rest
    rw [Token.words_of_skipGap_cons hskip, hstate]
    exact ⟨⟨fun heof => absurd heof hkind, Token.lexed_cut c rest⟩, if_neg hkind⟩

theorem valid_ofSource (source : String) : (ofSource source).Valid :=
  (next_valid_pending source.toList _).1

theorem pending_ofSource (source : String) :
    (ofSource source).pending = (Token.tokenize source).dropLast :=
  (next_valid_pending source.toList _).2

theorem tokenize_eq_pending (source : String) :
    Token.tokenize source = (ofSource source).pending ++ [.eof] := by
  rw [pending_ofSource]
  exact Token.tokens_eq_words_append source.toList

/-! ## Progress -/

/-- `state'` is valid and not before `state` in the same source.  Where it has fewer pending
tokens it has also fewer characters left. -/
structure Follows (state' state : State) : Prop where
  valid : state'.Valid
  suffix : state'.pending <:+ state.pending
  remaining_le : state'.remaining ≤ state.remaining
  remaining_lt : state'.pending.length < state.pending.length →
    state'.remaining < state.remaining

theorem Valid.follows {state : State} (hvalid : state.Valid) : state.Follows state where
  valid := hvalid
  suffix := List.suffix_refl _
  remaining_le := Nat.le_refl _
  remaining_lt hlt := absurd hlt (Nat.lt_irrefl _)

theorem Follows.trans {first second third : State} (hfirst : second.Follows first)
    (hsecond : third.Follows second) : third.Follows first where
  valid := hsecond.valid
  suffix := hsecond.suffix.trans hfirst.suffix
  remaining_le := Nat.le_trans hsecond.remaining_le hfirst.remaining_le
  remaining_lt hlt := by
    have hfirst_le := hfirst.remaining_le
    have hsecond_le := hsecond.remaining_le
    -- Some token was passed over on the first way or on the second one.
    by_cases hmid : third.pending.length < second.pending.length
    · have := hsecond.remaining_lt hmid
      omega
    · have := hfirst.remaining_lt (by omega)
      omega

/-- What a state shows does not depend on its log. -/
theorem Valid.follows_log {state : State} (hvalid : state.Valid) (log : Array Event) :
    State.Follows { state with log := log } state where
  valid := ⟨hvalid.of_eof, hvalid.lexed⟩
  suffix := List.suffix_refl _
  remaining_le := Nat.le_refl _
  remaining_lt hlt := absurd hlt (Nat.lt_irrefl _)

theorem length_next_lt {cs : List Char} (hkind : (Token.next cs).1.kind ≠ .eof) :
    (Token.next cs).2.length < cs.length := by
  unfold Token.next at hkind ⊢
  split
  · rename_i hskip
    rw [hskip] at hkind
    exact absurd rfl hkind
  · rename_i hskip
    exact Token.length_cut_lt_of_skipGap hskip

/-- Moving on drops the first pending token. -/
theorem Valid.pending_advance {state : State} (hvalid : state.Valid) :
    state.advance.pending = state.pending.tail := by
  have hnext : state.advance.pending = Token.words state.unread :=
    (next_valid_pending state.unread _).2
  rw [hnext]
  by_cases heof : state.current.kind = .eof
  · rw [(hvalid.of_eof heof).2, pending_eq_nil_iff.2 heof]
    exact Token.words_of_skipGap_nil (by simp [Token.skipGap])
  · rw [pending, if_neg heof, List.tail_cons]

/-- Moving on from a token leaves less to be read. -/
theorem remaining_advance_lt {state : State} (hkind : state.current.kind ≠ .eof) :
    state.advance.remaining < state.remaining := by
  by_cases hend : state.advance.current.kind = .eof
  · simp [remaining, hkind, hend]
  · have hlt : state.advance.unread.length < state.unread.length := length_next_lt hend
    simp only [remaining, if_neg hkind, if_neg hend]
    omega

theorem Valid.follows_advance {state : State} (hvalid : state.Valid) :
    state.advance.Follows state := by
  have hpending := hvalid.pending_advance
  refine ⟨(next_valid_pending state.unread _).1, ?_, ?_, ?_⟩
  · rw [hpending]
    exact List.tail_suffix _
  · by_cases heof : state.current.kind = .eof
    · have hnil : state.advance.current.kind = .eof := by
        rw [← pending_eq_nil_iff, hpending, pending_eq_nil_iff.2 heof, List.tail_nil]
      simp [remaining, heof, hnil]
    · exact Nat.le_of_lt (remaining_advance_lt heof)
  · intro hlt
    refine remaining_advance_lt fun heof => ?_
    rw [pending_eq_nil_iff.2 heof] at hlt
    simp at hlt

/-! ## Fetching -/

/-- The tokens that were fetched, in their order. -/
def fetched (state : State) : List Token :=
  state.log.toList.filterMap Event.token?

/-- The tokens that were fetched, the current one at their end, and those still to come. -/
def stream (state : State) : List Token :=
  state.fetched ++ (state.pending ++ [Token.eof]).tail

/-- `state'` follows `state`, and what was fetched on the way came off the front of the stream. -/
structure Continues (state' state : State) : Prop extends Follows state' state where
  stream_eq : state'.stream = state.stream
  current_fetched : state.fetched.getLast? = some state.current →
    state'.fetched.getLast? = some state'.current

theorem Valid.continues {state : State} (hvalid : state.Valid) : state.Continues state where
  toFollows := hvalid.follows
  stream_eq := rfl
  current_fetched := id

theorem Continues.trans {first second third : State} (hfirst : second.Continues first)
    (hsecond : third.Continues second) : third.Continues first where
  toFollows := hfirst.toFollows.trans hsecond.toFollows
  stream_eq := hsecond.stream_eq.trans hfirst.stream_eq
  current_fetched hcurrent := hsecond.current_fetched (hfirst.current_fetched hcurrent)

/-- An event that tells of no token. -/
theorem Valid.continues_record {state : State} (hvalid : state.Valid) {event : Event}
    (hevent : event.token? = none) :
    State.Continues { state with log := state.log.push event } state := by
  have hfetched : fetched { state with log := state.log.push event } = state.fetched := by
    simp [fetched, hevent]
  refine ⟨hvalid.follows_log _, ?_, ?_⟩
  · rw [stream, hfetched]
    rfl
  · rw [hfetched]
    exact id

theorem fetched_advance (state : State) :
    state.advance.fetched = state.fetched ++ [state.advance.current] := by
  simp [fetched, advance, Event.token?]

/-- The token that is fetched is the next one of the stream.  On `eof` there is none. -/
theorem Valid.continues_advance {state : State} (hvalid : state.Valid)
    (hpending : state.pending ≠ []) : state.advance.Continues state := by
  have hfollows := hvalid.follows_advance
  obtain ⟨token, rest, hcons⟩ := List.exists_cons_of_ne_nil hpending
  have hrest : state.advance.pending = rest := by
    rw [hvalid.pending_advance, hcons, List.tail_cons]
  refine ⟨hfollows, ?_, fun _ => ?_⟩
  · rw [stream, fetched_advance, hfollows.valid.current_eq, hrest, stream, hcons, List.append_assoc]
    cases rest <;> rfl
  · rw [fetched_advance, List.getLast?_concat]

end Parser.State

end Frontend
