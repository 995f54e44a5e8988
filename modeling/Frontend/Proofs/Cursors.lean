import Frontend.Proofs.Pending
import Frontend.Proofs.Segmentation
import Frontend.Token.Cursor

/-!
# Cursors stay in their source

A cursor counts bytes, and there are byte counts that are no place of its source.  Reading tokens
never leads to one.

There are four groups.

* Bytes.  The bytes of a text are those of its characters, and as many bytes as a front of the
  text has lead to the rest of it.
* Places.  `Cursor.Stands` says that a cursor stands between a front and a rest of its source.
  There it answers, and passing over characters of the rest leads to the next such place.
* Tokens.  From such a place `Cursor.next?` reads the token that `Token.next` cuts off the rest,
  and stands behind it (`Stands.next?_eq`).
* Sessions.  A session is a run of requests to one cursor and to copies of it.
  `Session.Sound` holds at its start, no request breaks it, and under it every request is
  answered.
-/

namespace Frontend.Cursor

/-! ## Bytes -/

@[simp]
theorem byteLength_nil : byteLength [] = 0 := rfl

@[simp]
theorem byteLength_cons (c : Char) (cs : List Char) :
    byteLength (c :: cs) = c.utf8Size + byteLength cs := rfl

@[simp]
theorem byteLength_append (cs cs' : List Char) :
    byteLength (cs ++ cs') = byteLength cs + byteLength cs' := by
  induction cs with
  | nil => simp
  | cons c cs ih => rw [List.cons_append, byteLength_cons, ih, byteLength_cons, Nat.add_assoc]

theorem utf8ByteSize_ofList (cs : List Char) :
    (String.ofList cs).utf8ByteSize = byteLength cs := by
  induction cs with
  | nil => simp
  | cons c cs ih =>
    have hsplit : String.ofList (c :: cs) = String.singleton c ++ String.ofList cs := by
      rw [String.singleton_eq_ofList, ← String.ofList_append]
      rfl
    rw [hsplit, String.utf8ByteSize_append, ih, String.utf8ByteSize_singleton, byteLength_cons]

theorem utf8ByteSize_eq (source : String) : source.utf8ByteSize = byteLength source.toList := by
  rw [← utf8ByteSize_ofList, String.ofList_toList]

/-- The bytes of a front of the text lead to the rest. -/
theorem dropBytes?_append (front rest : List Char) :
    dropBytes? (front ++ rest) (byteLength front) = some rest := by
  induction front with
  | nil => cases rest <;> rfl
  | cons c front ih =>
    have hpos := byteLength_cons_pos c front
    obtain ⟨bytes, hbytes⟩ : ∃ bytes, byteLength (c :: front) = bytes + 1 :=
      ⟨_, (Nat.succ_pred_eq_of_pos hpos).symm⟩
    have hle : c.utf8Size ≤ bytes + 1 := by
      rw [← hbytes, byteLength_cons]
      exact Nat.le_add_right _ _
    rw [hbytes, List.cons_append, dropBytes?, if_pos hle, ← hbytes, byteLength_cons,
      Nat.add_sub_cancel_left, ih]

/-! ## Places -/

/-- The cursor stands between `front` and `rest`, which make up its source. -/
structure Stands (cursor : Cursor) (front rest : List Char) : Prop where
  source : cursor.source.toList = front ++ rest
  position : cursor.position = byteLength front

section Places

variable {cursor : Cursor} {front rest : List Char}

theorem stands_ofSource (source : String) : (ofSource source).Stands [] source.toList :=
  ⟨rfl, rfl⟩

theorem Stands.rest?_eq (hstands : cursor.Stands front rest) : cursor.rest? = some rest := by
  rw [rest?, hstands.source, hstands.position, dropBytes?_append]

theorem Stands.atEnd_iff (hstands : cursor.Stands front rest) :
    cursor.atEnd = true ↔ rest = [] := by
  rw [atEnd, decide_eq_true_eq, utf8ByteSize_eq, hstands.source, hstands.position,
    byteLength_append]
  cases rest with
  | nil => simp
  | cons c rest =>
    have hpos := byteLength_cons_pos c rest
    simp only [reduceCtorEq, iff_false]
    omega

theorem Stands.pass {run : List Char} (hstands : cursor.Stands front (run ++ rest)) :
    (cursor.pass run).Stands (front ++ run) rest where
  source := by
    show cursor.source.toList = _
    rw [hstands.source, List.append_assoc]
  position := by
    show cursor.position + byteLength run = _
    rw [hstands.position, byteLength_append]

theorem pass_pass (cursor : Cursor) (run run' : List Char) :
    (cursor.pass run).pass run' = cursor.pass (run ++ run') := by
  simp only [Cursor.pass, advance, byteLength_append, Nat.add_assoc]

/-- The place of the cursor is one of its source. -/
theorem Stands.isValid (hstands : cursor.Stands front rest) :
    String.Pos.Raw.IsValid cursor.source ⟨cursor.position⟩ := by
  refine String.Pos.Raw.isValid_iff_exists_append.2 ⟨.ofList front, .ofList rest, ?_, ?_⟩
  · rw [← String.ofList_append, ← hstands.source, String.ofList_toList]
  · rw [hstands.position, ← utf8ByteSize_ofList]
    rfl

end Places

/-! ## Tokens -/

theorem gap_of_blanks {run : List Char} (hrun : ∀ c ∈ run, Text.isWhiteSpace c = true)
    (rest : List Char) : Token.Gap rest run := by
  induction run with
  | nil => exact .nil
  | cons c run ih =>
    rw [List.forall_mem_cons] at hrun
    exact .blank hrun.1 (ih hrun.2)

/-- The run at the front of a text is a gap before what is left. -/
theorem gap_leadingGap (cs : List Char) :
    ∃ rest, cs = leadingGap cs ++ rest ∧ Token.Gap rest (leadingGap cs) := by
  cases cs with
  | nil => exact ⟨[], rfl, .nil⟩
  | cons c cs =>
    rw [leadingGap]
    split
    · rename_i hblank
      refine ⟨cs.dropWhile Text.isWhiteSpace, ?_, .blank hblank (gap_of_blanks ?_ _)⟩
      · rw [List.cons_append, List.takeWhile_append_dropWhile]
      · exact List.all_eq_true.1 List.all_takeWhile
    · split
      · rename_i hhash
        obtain rfl : c = '#' := beq_iff_eq.1 hhash
        let inComment (d : Char) := !Token.isLineBreak d
        have hbody : ∀ d ∈ cs.takeWhile inComment, Token.isLineBreak d = false := by
          have hall := List.all_eq_true.1 (List.all_takeWhile (p := inComment) (l := cs))
          simpa [inComment] using hall
        have hend : ∀ d ∈ (cs.dropWhile inComment).head?, Token.isLineBreak d = true := by
          simpa [inComment] using Token.not_head?_dropWhile inComment cs
        refine ⟨cs.dropWhile inComment, ?_, ?_⟩
        · rw [List.cons_append, List.takeWhile_append_dropWhile]
        · have hgap := Token.Gap.comment hbody hend .nil
          rwa [List.append_nil] at hgap
      · exact ⟨c :: cs, rfl, .nil⟩

theorem isVisible_of_leadingGap {c : Char} {cs : List Char}
    (hgap : leadingGap (c :: cs) = []) : Token.isVisible c = true := by
  rw [leadingGap] at hgap
  split at hgap
  · cases hgap
  · rename_i hblank
    split at hgap
    · cases hgap
    · rename_i hhash
      simp only [Token.isVisible, Bool.and_eq_true, Bool.not_eq_true', bne_iff_ne]
      exact ⟨Bool.eq_false_iff.2 hblank, by simpa using hhash⟩

section Tokens

variable {cursor : Cursor} {front rest : List Char}

/-- A token is cut off at the cursor as it is cut off the rest of the source, and the cursor passes
over its text. -/
theorem Stands.cut?_eq {c : Char} (hstands : cursor.Stands front (c :: rest)) :
    cursor.cut? c rest =
      some ((Token.cut c rest).1, cursor.pass (Token.cut c rest).1.text.toList) := by
  unfold cut?
  split
  · rename_i halpha
    rw [Token.cut_of_isAlpha halpha]
    simp [Token.ofWord]
  · rename_i halpha
    split
    · rename_i hnumber
      rw [Token.cut_of_isNumberChar hnumber]
      simp [Token.ofNumber]
    · rename_i hnumber
      rw [Bool.not_eq_true] at halpha hnumber
      have hpassed : (cursor.pass [c]).Stands (front ++ [c]) rest := Stands.pass hstands
      unfold symbol?
      dsimp only
      rw [hpassed.rest?_eq]
      cases rest with
      | nil =>
        rw [Token.cut_one halpha hnumber (by simp)]
        simp [Token.ofSymbol]
      | cons d rest =>
        dsimp only
        split
        · rename_i hfollows
          rw [Token.cut_pair halpha hnumber (List.contains_iff_mem.1 hfollows)]
          simp [Token.ofSymbol, pass_pass]
        · rename_i hfollows
          rw [Token.cut_one halpha hnumber (by simpa using hfollows)]
          simp [Token.ofSymbol]

/-- The cursor reads the token that is cut off the rest of its source, and then stands behind it.
The induction is on the rest: every run of a gap that is passed over makes it shorter. -/
theorem Stands.next?_eq (hstands : cursor.Stands front rest) :
    ∃ used next, rest = used ++ (Token.next rest).2 ∧
      cursor.next? = some ((Token.next rest).1, next) ∧ next.source = cursor.source ∧
      next.Stands (front ++ used) (Token.next rest).2 := by
  induction hlength : rest.length using Nat.strongRecOn generalizing cursor front rest with
  | ind length ih =>
    rw [Cursor.next?]
    cases rest with
    | nil =>
      refine ⟨[], cursor, rfl, dif_pos (hstands.atEnd_iff.2 rfl), rfl, ?_⟩
      rwa [List.append_nil]
    | cons c rest =>
      rw [dif_neg (by simp [hstands.atEnd_iff]), hstands.rest?_eq]
      dsimp only
      cases hgap : leadingGap (c :: rest) with
      | nil =>
        have hvisible := isVisible_of_leadingGap hgap
        have hnext : Token.next (c :: rest) = Token.cut c rest := by
          rw [Token.next, Token.skipGap_visible hvisible]
        have htext := (Token.lexeme_cut hvisible rest).2
        rw [hnext]
        refine ⟨_, _, htext.symm, hstands.cut?_eq, rfl, ?_⟩
        rw [← htext] at hstands
        exact hstands.pass
      | cons d gap =>
        obtain ⟨behind, hsplit, hleads⟩ := gap_leadingGap (c :: rest)
        rw [hgap] at hsplit hleads
        have hnext : Token.next (c :: rest) = Token.next behind := by
          rw [Token.next, hsplit, hleads.skipGap_append, Token.next]
        have hshorter : behind.length < length := by
          rw [← hlength, hsplit, List.length_append, List.length_cons]
          omega
        rw [hsplit] at hstands
        obtain ⟨used, next, hused, hread, hsource, hstands'⟩ := ih _ hshorter hstands.pass rfl
        rw [hnext]
        refine ⟨d :: gap ++ used, next, ?_, hread, hsource, ?_⟩
        · rw [List.append_assoc, ← hused, hsplit]
        · rwa [← List.append_assoc]

/-- A token that is read lies before the cursor. -/
theorem Stands.position_lt {used : List Char} {next : Cursor} (hstands : cursor.Stands front rest)
    (hused : rest = used ++ (Token.next rest).2)
    (hnext : next.Stands (front ++ used) (Token.next rest).2)
    (hkind : (Token.next rest).1.kind ≠ .eof) : cursor.position < next.position := by
  have hshorter := Parser.State.length_next_lt hkind
  cases used with
  | nil =>
    rw [List.nil_append] at hused
    rw [← hused] at hshorter
    exact absurd hshorter (Nat.lt_irrefl _)
  | cons c used =>
    have hpos := byteLength_cons_pos c used
    rw [hstands.position, hnext.position, byteLength_append]
    omega

/-- `eof` is read only where nothing is left. -/
theorem rest_eq_nil_of_eof (hkind : (Token.next rest).1.kind = .eof) : (Token.next rest).2 = [] :=
  ((Parser.State.next_valid_pending rest #[]).1.of_eof hkind).2

theorem Stands.next?_end (hstands : cursor.Stands front []) :
    cursor.next? = some (.eof, cursor) := by
  rw [Cursor.next?, dif_pos (hstands.atEnd_iff.2 rfl)]

theorem Stands.position_end (hstands : cursor.Stands front []) :
    cursor.position = cursor.source.utf8ByteSize := by
  rw [hstands.position, utf8ByteSize_eq, hstands.source, List.append_nil]

/-- The tokens of a text are the first one and those of what it leaves, and then `eof` for ever. -/
theorem getD_tokens (cs : List Char) :
    (Token.tokens cs).getD 0 .eof = (Token.next cs).1 ∧
      ∀ index, (Token.tokens cs).getD (index + 1) .eof =
        (Token.tokens (Token.next cs).2).getD index .eof := by
  rcases hskip : Token.skipGap cs with _ | ⟨c, rest⟩
  · have hnext : Token.next cs = (.eof, []) := by rw [Token.next, hskip]
    have hnil : Token.words [] = [] := Token.words_of_skipGap_nil rfl
    rw [hnext, Token.tokens_eq_words_append, Token.words_of_skipGap_nil hskip,
      Token.tokens_eq_words_append, hnil]
    refine ⟨rfl, fun index => ?_⟩
    cases index <;> rfl
  · have hnext : Token.next cs = Token.cut c rest := by rw [Token.next, hskip]
    rw [hnext, Token.tokens_eq_words_append, Token.words_of_skipGap_cons hskip,
      Token.tokens_eq_words_append (Token.cut c rest).2]
    exact ⟨rfl, fun index => rfl⟩

end Tokens

/-! ## Sessions -/

/-- What can be asked of a cursor and of the copies of it that were kept. -/
inductive Request where
  /-- Read a token. -/
  | next
  /-- Look at the next character. -/
  | peek
  /-- Look at all that is left. -/
  | rest
  | atEnd
  | reset
  /-- Keep a copy of the cursor. -/
  | keep
  /-- Go on with a copy, given by its place in the row of copies, the latest first. -/
  | resume (copy : Nat)

/-- Whether the request moves the cursor only if it reads a token. -/
def Request.stays : Request → Bool
  | .reset | .resume _ => false
  | _ => true

/-- The answer to a request. -/
inductive Answer where
  | token (token : Token)
  | char (c : Option Char)
  | text (text : List Char)
  | flag (value : Bool)
  | done

/-- A cursor and the copies of it that were kept. -/
structure Session where
  cursor : Cursor
  copies : List Cursor

namespace Session

/-- The session that begins with a source. -/
def start (source : String) : Session := ⟨.ofSource source, []⟩

/-- The answer to a request and the session after it; `none` if the cursor stands where it cannot
be answered. -/
def answer? (session : Session) : Request → Option (Answer × Session)
  | .next => session.cursor.next?.map fun (token, next) =>
    (.token token, { session with cursor := next })
  | .peek => session.cursor.rest?.map fun cs => (.char cs.head?, session)
  | .rest => session.cursor.rest?.map fun cs => (.text cs, session)
  | .atEnd => some (.flag session.cursor.atEnd, session)
  | .reset => some (.done, { session with cursor := session.cursor.reset })
  | .keep => some (.done, { session with copies := session.cursor :: session.copies })
  | .resume copy =>
    some (.done, { session with cursor := session.copies.getD copy session.cursor })

/-- The answers to a row of requests and the session after them, if all can be answered. -/
def run? (session : Session) : List Request → Option (List Answer × Session)
  | [] => some ([], session)
  | request :: requests =>
    match session.answer? request with
    | none => none
    | some (answer, session') =>
      (session'.run? requests).map fun (answers, last) => (answer :: answers, last)

theorem run?_cons {session session' last : Session} {request : Request} {requests : List Request}
    {answer : Answer} {answers : List Answer}
    (hanswer : session.answer? request = some (answer, session'))
    (hrun : session'.run? requests = some (answers, last)) :
    session.run? (request :: requests) = some (answer :: answers, last) := by
  rw [run?, hanswer]
  simp only [hrun, Option.map_some]

/-- All cursors of the session stand in the source. -/
def Sound (source : String) (session : Session) : Prop :=
  ∀ cursor ∈ session.cursor :: session.copies,
    cursor.source = source ∧ ∃ front rest, cursor.Stands front rest

theorem sound_start (source : String) : (start source).Sound source := by
  intro cursor hmem
  obtain rfl : cursor = .ofSource source := List.mem_singleton.1 hmem
  exact ⟨rfl, [], source.toList, stands_ofSource source⟩

section Runs

variable {source : String} {session : Session}

theorem Sound.move (hsound : session.Sound source) {cursor : Cursor} {front rest : List Char}
    (hsource : cursor.source = source) (hstands : cursor.Stands front rest) :
    Sound source { session with cursor } :=
  List.forall_mem_cons.2
    ⟨⟨hsource, front, rest, hstands⟩, fun copy hmem => hsound copy (.tail _ hmem)⟩

/-- Every request of a sound session is answered, and the session stays sound. -/
theorem Sound.answer? (hsound : session.Sound source) (request : Request) :
    ∃ answer session', session.answer? request = some (answer, session') ∧
      session'.Sound source := by
  obtain ⟨hsource, front, rest, hstands⟩ := hsound session.cursor List.mem_cons_self
  cases request with
  | next =>
    obtain ⟨used, next, -, hread, hsame, hstands'⟩ := hstands.next?_eq
    refine ⟨_, _, by rw [Session.answer?, hread]; rfl, ?_⟩
    exact hsound.move (hsame.trans hsource) hstands'
  | peek => exact ⟨_, session, by rw [Session.answer?, hstands.rest?_eq]; rfl, hsound⟩
  | rest => exact ⟨_, session, by rw [Session.answer?, hstands.rest?_eq]; rfl, hsound⟩
  | atEnd => exact ⟨_, session, rfl, hsound⟩
  | reset =>
    have hstart : session.cursor.reset.Stands [] session.cursor.source.toList := ⟨rfl, rfl⟩
    exact ⟨_, _, rfl, hsound.move hsource hstart⟩
  | keep =>
    refine ⟨_, _, rfl, ?_⟩
    exact List.forall_mem_cons.2 ⟨⟨hsource, front, rest, hstands⟩, hsound⟩
  | resume copy =>
    refine ⟨_, _, rfl, ?_⟩
    have hmem : session.copies.getD copy session.cursor ∈ session.cursor :: session.copies := by
      rw [List.getD_eq_getElem?_getD]
      cases hcopy : session.copies[copy]? with
      | none => exact List.mem_cons_self
      | some cursor => exact .tail _ (List.mem_of_getElem? hcopy)
    obtain ⟨hsource', front', rest', hstands'⟩ := hsound _ hmem
    exact hsound.move hsource' hstands'

theorem Sound.run? (hsound : session.Sound source) (requests : List Request) :
    ∃ answers last, session.run? requests = some (answers, last) ∧ last.Sound source := by
  induction requests generalizing session with
  | nil => exact ⟨[], session, rfl, hsound⟩
  | cons request requests ih =>
    obtain ⟨answer, session', hanswer, hsound'⟩ := hsound.answer? request
    obtain ⟨answers, last, hrun, hlast⟩ := ih hsound'
    exact ⟨answer :: answers, last, run?_cons hanswer hrun, hlast⟩

/-- At the end of the source nothing but `eof` is read, and the cursor stays there. -/
theorem answer?_end {front : List Char} (hstands : session.cursor.Stands front [])
    {request : Request} (hstays : request.stays = true) :
    ∃ answer session', session.answer? request = some (answer, session') ∧
      session'.cursor = session.cursor ∧ ∀ token, answer = .token token → token = .eof := by
  cases request with
  | next =>
    refine ⟨.token .eof, session, by rw [Session.answer?, hstands.next?_end]; rfl, rfl, ?_⟩
    rintro _ ⟨⟩
    rfl
  | peek => exact ⟨_, session, by rw [Session.answer?, hstands.rest?_eq]; rfl, rfl, by simp⟩
  | rest => exact ⟨_, session, by rw [Session.answer?, hstands.rest?_eq]; rfl, rfl, by simp⟩
  | atEnd => exact ⟨_, session, rfl, rfl, by simp⟩
  | keep => exact ⟨_, _, rfl, rfl, by simp⟩
  | reset => cases hstays
  | resume copy => cases hstays

theorem run?_end {front : List Char} (hstands : session.cursor.Stands front [])
    {requests : List Request} (hstay : ∀ request ∈ requests, request.stays = true) :
    ∃ answers last, session.run? requests = some (answers, last) ∧
      last.cursor = session.cursor ∧ ∀ token, .token token ∈ answers → token = .eof := by
  induction requests generalizing session with
  | nil => exact ⟨[], session, rfl, rfl, by simp⟩
  | cons request requests ih =>
    rw [List.forall_mem_cons] at hstay
    obtain ⟨answer, session', hanswer, hsame, htoken⟩ := answer?_end hstands hstay.1
    obtain ⟨answers, last, hrun, hlast, htokens⟩ := ih (hsame ▸ hstands) hstay.2
    refine ⟨_, last, run?_cons hanswer hrun, hlast.trans hsame, fun token hmem => ?_⟩
    rcases List.mem_cons.1 hmem with heq | hmem
    · exact htoken token heq.symm
    · exact htokens token hmem

/-- The tokens that are read are those of the rest of the source, one by one, and then `eof`. -/
theorem run?_next {front rest : List Char} (hstands : session.cursor.Stands front rest)
    (count : Nat) :
    ∃ last, session.run? (List.replicate count .next) =
      some ((List.range count).map fun index => .token ((Token.tokens rest).getD index .eof),
        last) := by
  induction count generalizing session front rest with
  | zero => exact ⟨session, rfl⟩
  | succ count ih =>
    obtain ⟨used, next, -, hread, -, hstands'⟩ := hstands.next?_eq
    let moved : Session := { session with cursor := next }
    have hmoved : moved.cursor.Stands (front ++ used) (Token.next rest).2 := hstands'
    have hanswer : session.answer? .next = some (.token (Token.next rest).1, moved) := by
      rw [Session.answer?, hread]
      rfl
    obtain ⟨last, hrun⟩ := ih hmoved
    obtain ⟨hfirst, hmore⟩ := getD_tokens rest
    refine ⟨last, ?_⟩
    rw [List.replicate_succ, run?_cons hanswer hrun, List.range_succ_eq_map, List.map_cons,
      List.map_map, hfirst]
    simp only [Function.comp_def, hmore]

end Runs

end Session

/-- Whatever is asked of a cursor and its copies, every request is answered: the cursor always
stands at the start of a character of its source or at its end.  Reading a token other than `eof`
moves it forward.  `eof` is read at the end of the source only, and from then on for as long as the
cursor is neither reset nor replaced.  After a reset the tokens of the source are read again. -/
theorem sessions_stay_in_source (source : String) (requests : List Request) :
    ∃ answers session, (Session.start source).run? requests = some (answers, session) ∧
      session.cursor.source = source ∧
      String.Pos.Raw.IsValid source ⟨session.cursor.position⟩ ∧
      session.cursor.position ≤ source.utf8ByteSize ∧
      (∃ token next, session.cursor.next? = some (token, next) ∧
        (token.kind ≠ .eof → session.cursor.position < next.position) ∧
        (token.kind = .eof → next.position = source.utf8ByteSize ∧
          ∀ further, (∀ request ∈ further, request.stays = true) →
            ∃ answers' last, ({ session with cursor := next } : Session).run? further =
                some (answers', last) ∧
              last.cursor = next ∧ ∀ token', .token token' ∈ answers' → token' = .eof)) ∧
      ∀ count, ∃ last, session.run? (.reset :: List.replicate count .next) =
        some (.done :: (List.range count).map fun index =>
          .token ((Token.tokenize source).getD index .eof), last) := by
  obtain ⟨answers, session, hrun, hsound⟩ := (Session.sound_start source).run? requests
  obtain ⟨rfl, front, rest, hstands⟩ := hsound session.cursor List.mem_cons_self
  have hvalid := hstands.isValid
  refine ⟨answers, session, hrun, rfl, hvalid, hvalid.le_utf8ByteSize, ?_, fun count => ?_⟩
  · obtain ⟨used, next, hused, hread, hsource, hstands'⟩ := hstands.next?_eq
    refine ⟨_, next, hread, hstands.position_lt hused hstands', fun hkind => ?_⟩
    rw [rest_eq_nil_of_eof hkind] at hstands'
    let moved : Session := { session with cursor := next }
    have hmoved : moved.cursor.Stands (front ++ used) [] := hstands'
    exact ⟨hsource ▸ hstands'.position_end, fun further hfurther =>
      Session.run?_end hmoved hfurther⟩
  · let start : Session := { session with cursor := session.cursor.reset }
    have hstart : start.cursor.Stands [] session.cursor.source.toList := ⟨rfl, rfl⟩
    obtain ⟨last, htokens⟩ := Session.run?_next hstart count
    have hreset : session.answer? .reset = some (.done, start) := rfl
    exact ⟨last, Session.run?_cons hreset htokens⟩

/-- The place behind `λ` is two bytes further on, and `≤` is no operator. -/
example : ((Session.start "λ≤").run? [.next, .keep, .next, .next, .resume 0, .next]).map
    (fun run => run.2.cursor.position) = some 5 := by
  decide +kernel

end Frontend.Cursor
