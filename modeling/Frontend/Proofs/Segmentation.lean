import Frontend.Proofs.Spelling

/-!
# The words of a text, without a lexer

What the tokens of a text are, said of the text alone.  `Segmentation` takes a text apart
into gaps and words.  Every word is as long as it can be where it stands: what follows it
does not continue it.

* `Gap rest gap`: white space and comments, before the text `rest`.
* `Lexeme rest token`: a token that is cut where `rest` follows it, one constructor for
  each of the four ways to cut one.
* `Segmentation cs tokens`: gaps and words in turn, up to the end of the text.

A text has exactly one segmentation.  `segmentation_words` gives one by following the
cuts, and `Segmentation.words_eq` says that the cuts can follow any: a gap is skipped whole
(`Gap.skipGap_append`), and a lexeme is cut whole (`Lexeme.exists_cut`).
-/

namespace Frontend.Token

/-- White space and comments before the text `rest`.  A comment goes on up to a line break or
the end of the source, so it depends on what follows. -/
inductive Gap (rest : List Char) : List Char → Prop
  | nil : Gap rest []
  | blank {c : Char} {gap : List Char} (hblank : Text.isWhiteSpace c = true)
      (hgap : Gap rest gap) : Gap rest (c :: gap)
  | comment {body gap : List Char} (hbody : ∀ c ∈ body, isLineBreak c = false)
      (hend : ∀ c ∈ (gap ++ rest).head?, isLineBreak c = true) (hgap : Gap rest gap) :
      Gap rest ('#' :: (body ++ gap))

/-- A token that is cut where the text `rest` follows it: a word or a number that does not go on
in `rest`, an operator that is no part of a longer one, or a character at which no gap and none
of these begins. -/
inductive Lexeme (rest : List Char) : Token → Prop
  | word {text : String} (hword : isWord text = true)
      (hend : ∀ c ∈ rest.head?, isWordChar c = false) :
      Lexeme rest ⟨(reserved.lookup text).getD .identifier, text⟩
  | number {text : String} (hne : text.toList ≠ [])
      (hnumber : ∀ c ∈ text.toList, isNumberChar c = true)
      (hend : ∀ c ∈ rest.head?, isNumberChar c = false) :
      Lexeme rest ⟨if '.' ∈ text.toList then .float else .int, text⟩
  | operator {text : String} (htext : text ∈ Operator.all)
      (hlongest : ∀ other ∈ Operator.all, other.toList <+: text.toList ++ rest →
        other.length ≤ text.length) :
      Lexeme rest ⟨.op, text⟩
  | single {c : Char} (hvisible : isVisible c = true) (halpha : c.isAlpha = false)
      (hnumber : isNumberChar c = false)
      (hoperator : ∀ operator ∈ Operator.all, ¬operator.toList <+: c :: rest) :
      Lexeme rest ⟨.misc, String.ofList [c]⟩

/-- The text is made of gaps and the texts of the tokens, in turn. -/
inductive Segmentation : List Char → List Token → Prop
  | nil {gap : List Char} (hgap : Gap [] gap) : Segmentation gap []
  | cons {gap rest : List Char} {token : Token} {tokens : List Token}
      (hgap : Gap (token.text.toList ++ rest) gap) (htoken : Lexeme rest token)
      (hrest : Segmentation rest tokens) :
      Segmentation (gap ++ (token.text.toList ++ rest)) (token :: tokens)

/-! ## Gaps -/

theorem isWhiteSpace_of_isLineBreak {c : Char} (hc : isLineBreak c = true) :
    Text.isWhiteSpace c = true := by
  simp only [isLineBreak, Bool.or_eq_true, beq_iff_eq] at hc
  rcases hc with rfl | rfl <;> rfl

theorem skipGap_visible {c : Char} (hc : isVisible c = true) (cs : List Char) :
    skipGap (c :: cs) = c :: cs := by
  simp only [isVisible, Bool.and_eq_true, Bool.not_eq_true', bne_iff_ne] at hc
  rw [skipGap, if_neg (by simp [hc.1]), if_neg (by simp [hc.2])]

theorem skipComment_append {body : List Char} (hbody : ∀ c ∈ body, isLineBreak c = false)
    (cs : List Char) : skipComment (body ++ cs) = skipComment cs := by
  induction body with
  | nil => rfl
  | cons c body ih =>
    rw [List.forall_mem_cons] at hbody
    rw [List.cons_append, skipComment, if_neg (by simp [hbody.1]), ih hbody.2]

/-- At the end of a comment its line break is skipped like any white space. -/
theorem skipComment_eq_skipGap {cs : List Char} (hend : ∀ c ∈ cs.head?, isLineBreak c = true) :
    skipComment cs = skipGap cs := by
  cases cs with
  | nil => simp only [skipComment, skipGap]
  | cons c cs =>
    have hbreak := hend c rfl
    rw [skipComment, skipGap, if_pos hbreak, if_pos (isWhiteSpace_of_isLineBreak hbreak)]

theorem Gap.skipGap_append {rest gap : List Char} (hgap : Gap rest gap) :
    skipGap (gap ++ rest) = skipGap rest := by
  induction hgap with
  | nil => rfl
  | blank hblank _ ih => rw [List.cons_append, skipGap, if_pos hblank, ih]
  | comment hbody hend _ ih =>
    rw [List.cons_append, List.append_assoc, skipGap, if_neg (by decide), if_pos (by decide),
      skipComment_append hbody, skipComment_eq_skipGap hend, ih]

mutual

/-- What is skipped is a gap. -/
theorem exists_gap : (cs : List Char) → ∃ gap, cs = gap ++ skipGap cs ∧ Gap (skipGap cs) gap
  | [] => ⟨[], by simp [skipGap], .nil⟩
  | c :: cs => by
    rw [skipGap]
    split
    · rename_i hblank
      obtain ⟨gap, hcs, hgap⟩ := exists_gap cs
      exact ⟨c :: gap, by rw [List.cons_append, ← hcs], .blank hblank hgap⟩
    · split
      · rename_i hhash
        obtain ⟨body, gap, hcs, hbody, hend, hgap⟩ := exists_comment cs
        refine ⟨'#' :: (body ++ gap), ?_, .comment hbody hend hgap⟩
        rw [List.cons_append, List.append_assoc, ← hcs, beq_iff_eq.1 hhash]
      · exact ⟨[], rfl, .nil⟩

/-- What is skipped from inside a comment on is the rest of the comment and a gap. -/
theorem exists_comment : (cs : List Char) → ∃ body gap, cs = body ++ (gap ++ skipComment cs) ∧
    (∀ c ∈ body, isLineBreak c = false) ∧
    (∀ c ∈ (gap ++ skipComment cs).head?, isLineBreak c = true) ∧ Gap (skipComment cs) gap
  | [] => ⟨[], [], by simp [skipComment], nofun, by simp [skipComment], .nil⟩
  | c :: cs => by
    rw [skipComment]
    split
    · rename_i hbreak
      obtain ⟨gap, hcs, hgap⟩ := exists_gap cs
      refine ⟨[], c :: gap, ?_, nofun, ?_, .blank (isWhiteSpace_of_isLineBreak hbreak) hgap⟩
      · rw [List.nil_append, List.cons_append, ← hcs]
      · rintro _ ⟨⟩
        exact hbreak
    · rename_i hbreak
      obtain ⟨body, gap, hcs, hbody, hend, hgap⟩ := exists_comment cs
      refine ⟨c :: body, gap, ?_, ?_, hend, hgap⟩
      · rw [List.cons_append, ← hcs]
      · exact List.forall_mem_cons.2 ⟨Bool.eq_false_iff.2 hbreak, hbody⟩

end

/-! ## Operators -/

theorem mem_all_of_followers {c d : Char} (hd : d ∈ Operator.followers c) :
    String.ofList [c, d] ∈ Operator.all := by
  unfold Operator.followers at hd
  cases hlookup : Operator.leads.lookup c with
  | none =>
    rw [hlookup] at hd
    cases hd
  | some followers =>
    rw [hlookup] at hd
    obtain ⟨before, after, hsplit, -⟩ := List.lookup_eq_some_iff.1 hlookup
    have hall : (Operator.leads.all fun lead => lead.2.all fun d =>
        Operator.all.contains (String.ofList [lead.1, d])) = true := by decide
    simp only [List.all_eq_true, List.contains_iff_mem] at hall
    exact hall (c, followers) (by rw [hsplit]; simp) d hd

/-- The first character of an operator begins nothing else, and its second one is one that may
follow the first. -/
theorem exists_of_mem_all {text : String} (htext : text ∈ Operator.all) :
    ∃ c, isVisible c = true ∧ c.isAlpha = false ∧ isNumberChar c = false ∧
      (text = String.ofList [c] ∨ ∃ d ∈ Operator.followers c, text = String.ofList [c, d]) := by
  have hall : (Operator.all.all fun text => text.toList.head?.any fun c =>
      isVisible c && !c.isAlpha && !isNumberChar c &&
        (text == String.ofList [c] ||
          (Operator.followers c).any fun d => text == String.ofList [c, d])) = true := by decide
  obtain ⟨c, -, hc⟩ := (Option.any_eq_true _ _).1 (List.all_eq_true.1 hall text htext)
  simp only [Bool.and_eq_true, Bool.or_eq_true, Bool.not_eq_true', beq_iff_eq,
    List.any_eq_true] at hc
  exact ⟨c, hc.1.1.1, hc.1.1.2, hc.1.2, hc.2⟩

/-! ## Lexemes -/

theorem cut_of_isAlpha {c : Char} (hc : c.isAlpha = true) (cs : List Char) :
    cut c cs =
      (ofWord (String.ofList (c :: cs.takeWhile isWordChar)), cs.dropWhile isWordChar) := by
  unfold cut
  rw [if_pos hc]

theorem cut_of_isNumberChar {c : Char} (hc : isNumberChar c = true) (cs : List Char) :
    cut c cs = (ofNumber (c :: cs.takeWhile isNumberChar), cs.dropWhile isNumberChar) := by
  unfold cut
  rw [if_neg (by simp [isAlpha_of_isNumberChar hc]), if_pos hc]

/-- A second character is taken if it may follow the first one. -/
theorem cut_pair {c d : Char} (halpha : c.isAlpha = false) (hnumber : isNumberChar c = false)
    (hd : d ∈ Operator.followers c) (cs : List Char) :
    cut c (d :: cs) = (ofSymbol (String.ofList [c, d]), cs) := by
  unfold cut
  rw [if_neg (by simp [halpha]), if_neg (by simp [hnumber])]
  exact if_pos (List.contains_iff_mem.2 hd)

theorem cut_one {c : Char} (halpha : c.isAlpha = false) (hnumber : isNumberChar c = false)
    {cs : List Char} (hcs : ∀ d ∈ cs.head?, d ∉ Operator.followers c) :
    cut c cs = (ofSymbol (String.ofList [c]), cs) := by
  unfold cut
  rw [if_neg (by simp [halpha]), if_neg (by simp [hnumber])]
  cases cs with
  | nil => rfl
  | cons d cs => exact if_neg (by simpa using hcs d rfl)

/-- The cut takes a lexeme whole. -/
theorem Lexeme.exists_cut {rest : List Char} {token : Token} (htoken : Lexeme rest token) :
    ∃ c cs, token.text.toList ++ rest = c :: cs ∧ isVisible c = true ∧
      cut c cs = (token, rest) := by
  cases htoken with
  | @word text hword hend =>
    obtain ⟨c, cs, hlist⟩ : ∃ c cs, text.toList = c :: cs := by
      unfold isWord at hword
      cases hlist : text.toList with
      | nil => simp [hlist] at hword
      | cons c cs => exact ⟨c, cs, rfl⟩
    simp only [isWord, hlist, Bool.and_eq_true, List.all_eq_true] at hword
    obtain ⟨htake, hdrop⟩ := takeWhile_run hword.2 hend
    refine ⟨c, cs ++ rest, by rw [hlist, List.cons_append], isVisible_of_isAlpha hword.1, ?_⟩
    rw [cut_of_isAlpha hword.1, htake, hdrop, ← hlist, String.ofList_toList, ofWord]
  | @number text hne hnumber hend =>
    obtain ⟨c, cs, hlist⟩ := List.exists_cons_of_ne_nil hne
    rw [hlist, List.forall_mem_cons] at hnumber
    obtain ⟨htake, hdrop⟩ := takeWhile_run hnumber.2 hend
    refine ⟨c, cs ++ rest, by rw [hlist, List.cons_append],
      isVisible_of_isNumberChar hnumber.1, ?_⟩
    rw [cut_of_isNumberChar hnumber.1, htake, hdrop, ← hlist, ofNumber, String.ofList_toList]
    simp only [List.contains_iff_mem]
  | @operator text htext hlongest =>
    obtain ⟨c, hvisible, halpha, hnumber, rfl | ⟨d, hd, rfl⟩⟩ := exists_of_mem_all htext
    · refine ⟨c, rest, by simp, hvisible, ?_⟩
      rw [cut_one halpha hnumber, ofSymbol, if_pos (List.contains_iff_mem.2 htext)]
      -- A second character would make a longer operator.
      intro d hd hfollows
      obtain ⟨rest, rfl⟩ := List.head?_eq_some_iff.1 hd
      have hlength := hlongest _ (mem_all_of_followers hfollows) (by simp)
      simp at hlength
    · refine ⟨c, d :: rest, by simp, hvisible, ?_⟩
      rw [cut_pair halpha hnumber hd, ofSymbol, if_pos (List.contains_iff_mem.2 htext)]
  | @single c hvisible halpha hnumber hoperator =>
    refine ⟨c, rest, by simp, hvisible, ?_⟩
    have hnone : String.ofList [c] ∉ Operator.all := fun hmem => hoperator _ hmem (by simp)
    rw [cut_one halpha hnumber, ofSymbol, if_neg (by simpa using hnone)]
    intro d hd hfollows
    obtain ⟨rest, rfl⟩ := List.head?_eq_some_iff.1 hd
    exact hoperator _ (mem_all_of_followers hfollows) (by simp)

theorem not_head?_dropWhile (p : Char → Bool) (cs : List Char) :
    ∀ c ∈ (cs.dropWhile p).head?, p c = false := by
  intro c hc
  have hstop := List.head?_dropWhile_not p cs
  rw [hc] at hstop
  exact hstop

/-- A symbol is an operator if it is listed as one, and then the longest, or it is no part of any
operator. -/
theorem lexeme_ofSymbol {c : Char} (hvisible : isVisible c = true) (halpha : c.isAlpha = false)
    (hnumber : isNumberChar c = false) {rest : List Char}
    (hrest : ∀ d ∈ rest.head?, d ∉ Operator.followers c) :
    Lexeme rest (ofSymbol (String.ofList [c])) := by
  -- An operator at this place has one character, since no second one follows.
  have honly : ∀ other ∈ Operator.all, other.toList <+: c :: rest →
      other = String.ofList [c] := by
    intro other hother hlead
    obtain ⟨c', -, -, -, rfl | ⟨d, hd, rfl⟩⟩ := exists_of_mem_all hother
    · simp only [String.toList_ofList, List.cons_prefix_cons] at hlead
      rw [hlead.1]
    · simp only [String.toList_ofList, List.cons_prefix_cons] at hlead
      obtain ⟨rfl, hlead⟩ := hlead
      obtain ⟨rest', rfl⟩ := hlead
      exact absurd hd (hrest d rfl)
  unfold ofSymbol
  split
  · rename_i hmem
    refine .operator (List.contains_iff_mem.1 hmem) fun other hother hlead => ?_
    exact Nat.le_of_eq (congrArg String.length (honly other hother (by simpa using hlead)))
  · rename_i hmem
    refine .single hvisible halpha hnumber fun other hother hlead => ?_
    rw [honly other hother hlead] at hother
    exact hmem (List.contains_iff_mem.2 hother)

/-- An operator of two characters is the longest, since there is none of three. -/
theorem lexeme_pair {c d : Char} (hd : d ∈ Operator.followers c) (rest : List Char) :
    Lexeme rest (ofSymbol (String.ofList [c, d])) := by
  have hmem := mem_all_of_followers hd
  have hlength : ∀ other ∈ Operator.all, other.length ≤ 2 := by decide
  rw [ofSymbol, if_pos (List.contains_iff_mem.2 hmem)]
  refine .operator hmem fun other hother _ => ?_
  simpa using hlength other hother

/-- What is cut off is a lexeme, and nothing is lost. -/
theorem lexeme_cut {c : Char} (hc : isVisible c = true) (cs : List Char) :
    Lexeme (cut c cs).2 (cut c cs).1 ∧ (cut c cs).1.text.toList ++ (cut c cs).2 = c :: cs := by
  by_cases halpha : c.isAlpha = true
  · rw [cut_of_isAlpha halpha]
    refine ⟨.word ?_ (not_head?_dropWhile isWordChar cs), ?_⟩
    · simp [isWord, halpha, List.all_takeWhile]
    · simp [ofWord]
  by_cases hnumber : isNumberChar c = true
  · rw [cut_of_isNumberChar hnumber]
    constructor
    · let text := String.ofList (c :: cs.takeWhile isNumberChar)
      have hdigits : ∀ d ∈ text.toList, isNumberChar d = true := by
        rw [String.toList_ofList, List.forall_mem_cons]
        exact ⟨hnumber, List.all_eq_true.1 List.all_takeWhile⟩
      have hlexeme := Lexeme.number (by simp [text]) hdigits (not_head?_dropWhile isNumberChar cs)
      simpa [ofNumber, text] using hlexeme
    · simp [ofNumber]
  rw [Bool.not_eq_true] at halpha hnumber
  by_cases hfollows : ∃ d ∈ cs.head?, d ∈ Operator.followers c
  · obtain ⟨d, hd, hfollows⟩ := hfollows
    obtain ⟨cs, rfl⟩ := List.head?_eq_some_iff.1 hd
    rw [cut_pair halpha hnumber hfollows]
    exact ⟨lexeme_pair hfollows cs, by simp [ofSymbol]⟩
  · have hnone : ∀ d ∈ cs.head?, d ∉ Operator.followers c := fun d hd hmem =>
      hfollows ⟨d, hd, hmem⟩
    rw [cut_one halpha hnumber hnone]
    exact ⟨lexeme_ofSymbol hc halpha hnumber hnone, by simp [ofSymbol]⟩

/-! ## Texts -/

/-- The cuts follow every segmentation. -/
theorem Segmentation.words_eq {cs : List Char} {tokens : List Token}
    (hsegments : Segmentation cs tokens) : words cs = tokens := by
  induction hsegments with
  | @nil gap hgap =>
    refine words_of_skipGap_nil ?_
    have hskip := hgap.skipGap_append
    rwa [List.append_nil] at hskip
  | @cons gap rest token tokens hgap htoken _ ih =>
    obtain ⟨c, cs, htext, hvisible, hcut⟩ := htoken.exists_cut
    have hskip : skipGap (gap ++ (token.text.toList ++ rest)) = c :: cs := by
      rw [hgap.skipGap_append, htext, skipGap_visible hvisible]
    rw [words_of_skipGap_cons hskip, hcut, ih]

/-- The first character after a gap is visible. -/
theorem isVisible_of_skipGap {cs rest : List Char} {c : Char} (hskip : skipGap cs = c :: rest) :
    isVisible c = true := by
  -- The gap is skipped already, so skipping again changes nothing.
  have hfixed : skipGap (c :: rest) = c :: rest := by
    obtain ⟨gap, hcs, hgap⟩ := exists_gap cs
    have hagain := hgap.skipGap_append
    rw [← hcs, hskip] at hagain
    exact hagain.symm
  have hgap := length_skipGap_le rest
  have hcomment := length_skipComment_le rest
  have hlength := congrArg List.length hfixed
  rw [skipGap] at hlength
  split at hlength
  · simp only [List.length_cons] at hlength
    omega
  · rename_i hblank
    split at hlength
    · simp only [List.length_cons] at hlength
      omega
    · rename_i hhash
      simp only [isVisible, Bool.and_eq_true, Bool.not_eq_true', bne_iff_ne]
      exact ⟨Bool.eq_false_iff.2 hblank, by simpa using hhash⟩

/-- The cuts give a segmentation.  The induction follows them, each of which leaves a shorter
text. -/
theorem segmentation_words (cs : List Char) : Segmentation cs (words cs) := by
  induction hlength : cs.length using Nat.strongRecOn generalizing cs with
  | ind length ih =>
    obtain ⟨gap, hcs, hgap⟩ := exists_gap cs
    rcases hskip : skipGap cs with _ | ⟨c, rest⟩
    · rw [hskip] at hcs hgap
      rw [words_of_skipGap_nil hskip, hcs, List.append_nil]
      exact .nil hgap
    · obtain ⟨hlexeme, htext⟩ := lexeme_cut (isVisible_of_skipGap hskip) rest
      have hlt := length_cut_lt_of_skipGap hskip
      rw [hskip, ← htext] at hcs hgap
      rw [words_of_skipGap_cons hskip]
      have hrest := ih _ (hlength ▸ hlt) (cut c rest).2 rfl
      have hsegments := Segmentation.cons hgap hlexeme hrest
      rwa [← hcs] at hsegments

/-- Lexing a source gives the tokens of its segmentation and then the end, and a source has only
one segmentation. -/
theorem tokenize_segmentation (source : String) :
    ∃ tokens, tokenize source = tokens ++ [eof] ∧ Segmentation source.toList tokens ∧
      ∀ tokens', Segmentation source.toList tokens' → tokens' = tokens := by
  refine ⟨words source.toList, tokens_eq_words_append source.toList,
    segmentation_words source.toList, fun tokens' hsegments => ?_⟩
  exact hsegments.words_eq.symm

end Frontend.Token
