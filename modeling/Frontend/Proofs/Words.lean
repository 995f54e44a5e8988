import Frontend.Token.Lexer

/-!
# The words of a text

The words of a text are its tokens without the last one, which is always `eof`.
`words_of_skipGap_cons` takes the first word off a text.

The kind of a word says something about its text.  `Token.Lexed` collects what the
parsers and the trees that they build rely on: an identifier is spelled as one and is
not reserved, an operator is one of the operators of the language, and a truth value is
one of two words.
-/

namespace Frontend.Token

/-- The tokens of a text without the `eof` at their end. -/
def words (cs : List Char) : List Token :=
  (tokens cs).dropLast

theorem words_of_skipGap_nil {cs : List Char} (hskip : skipGap cs = []) : words cs = [] := by
  rw [words, tokens]
  split
  · rfl
  · rename_i hcons
    rw [hskip] at hcons
    cases hcons

theorem tokens_ne_nil (cs : List Char) : tokens cs ≠ [] := by
  rw [tokens]
  split <;> simp

theorem words_of_skipGap_cons {cs rest : List Char} {c : Char} (hskip : skipGap cs = c :: rest) :
    words cs = (cut c rest).1 :: words (cut c rest).2 := by
  rw [words, tokens]
  split
  · rename_i hnil
    rw [hskip] at hnil
    cases hnil
  · rename_i c' rest' hcons
    rw [hskip] at hcons
    cases hcons
    rw [List.dropLast_cons_of_ne_nil (tokens_ne_nil _), words]

/-- The words of a text and the end are all its tokens. -/
theorem tokens_eq_words_append (cs : List Char) : tokens cs = words cs ++ [eof] := by
  unfold words
  fun_induction tokens cs with
  | case1 => rfl
  | case2 cs c rest hskip ih =>
    rw [List.dropLast_cons_of_ne_nil (tokens_ne_nil _), List.cons_append, ← ih]

/-! ## Kinds and texts -/

/-- Whether a text is cut as one word: a letter, then letters, digits and underscores. -/
def isWord (text : String) : Bool :=
  match text.toList with
  | [] => false
  | c :: cs => c.isAlpha && cs.all isWordChar

/-- Whether a text is an identifier: a word that is not reserved. -/
def isIdentifier (text : String) : Bool :=
  isWord text && (reserved.lookup text).isNone

/-- The text of the token is one that its kind allows. -/
def Lexed (token : Token) : Prop :=
  match token.kind with
  | .identifier => isIdentifier token.text = true
  | .op => token.text ∈ Operator.all
  | .bool => token.text = "true" ∨ token.text = "false"
  | _ => True

/-- The cases of the kind of a word: an identifier, or what the table of reserved words says. -/
theorem kind_ofWord (text : String) :
    (ofWord text).kind = .identifier ∧ reserved.lookup text = none ∨
      (text, (ofWord text).kind) ∈ reserved := by
  unfold ofWord
  cases hlookup : reserved.lookup text with
  | none => exact .inl ⟨rfl, rfl⟩
  | some kind =>
    obtain ⟨before, after, hsplit, -⟩ := List.lookup_eq_some_iff.1 hlookup
    refine .inr ?_
    rw [hsplit]
    simp

theorem lexed_ofWord {c : Char} {cs : List Char} (hc : c.isAlpha = true)
    (hcs : cs.all isWordChar = true) : (ofWord (String.ofList (c :: cs))).Lexed := by
  rcases kind_ofWord (String.ofList (c :: cs)) with ⟨hkind, hlookup⟩ | hreserved
  · unfold Lexed
    rw [hkind]
    show isIdentifier (String.ofList (c :: cs)) = true
    rw [isIdentifier, isWord, String.toList_ofList]
    simp only [hc, hcs, hlookup, Option.isNone_none, Bool.and_self]
  · have hall : ∀ entry ∈ reserved, Lexed ⟨entry.2, entry.1⟩ := by
      simp [reserved, Lexed]
    exact hall _ hreserved

theorem lexed_ofNumber (text : List Char) : (ofNumber text).Lexed := by
  unfold ofNumber
  split <;> trivial

theorem lexed_ofSymbol (text : String) : (ofSymbol text).Lexed := by
  unfold ofSymbol
  split
  · rename_i hop
    exact List.contains_iff_mem.1 hop
  · trivial

/-- A token that is cut off has a text that its kind allows. -/
theorem lexed_cut (c : Char) (cs : List Char) : (cut c cs).1.Lexed := by
  unfold cut
  split
  · rename_i hc
    exact lexed_ofWord hc (by simp [List.all_takeWhile])
  · split
    · exact lexed_ofNumber _
    · split
      · split <;> exact lexed_ofSymbol _
      · exact lexed_ofSymbol _

/-- A token that is cut off is never the end. -/
theorem kind_cut_ne_eof (c : Char) (cs : List Char) : (cut c cs).1.kind ≠ .eof := by
  have hword (text : String) : (ofWord text).kind ≠ .eof := by
    have hall : ∀ entry ∈ reserved, entry.2 ≠ .eof := by decide
    rcases kind_ofWord text with ⟨hkind, -⟩ | hreserved
    · rw [hkind]
      decide
    · exact hall _ hreserved
  have hnumber (text : List Char) : (ofNumber text).kind ≠ .eof := by
    simp only [ofNumber]
    split <;> simp
  have hsymbol (text : String) : (ofSymbol text).kind ≠ .eof := by
    simp only [ofSymbol]
    split <;> simp
  unfold cut
  split
  · exact hword _
  · split
    · exact hnumber _
    · split
      · split <;> exact hsymbol _
      · exact hsymbol _

/-- What holds of every token that is cut off a text holds of its words.  The induction follows the
cuts, each of which leaves a shorter text. -/
theorem forall_mem_words (holds : Token → Prop) (hcut : ∀ c cs, holds (cut c cs).1)
    {cs : List Char} {token : Token} (hmem : token ∈ words cs) : holds token := by
  induction hlength : cs.length using Nat.strongRecOn generalizing cs with
  | ind length ih =>
    rcases hskip : skipGap cs with _ | ⟨c, rest⟩
    · rw [words_of_skipGap_nil hskip] at hmem
      cases hmem
    · rw [words_of_skipGap_cons hskip, List.mem_cons] at hmem
      rcases hmem with rfl | hmem
      · exact hcut c rest
      · have hlt := length_cut_lt_of_skipGap hskip
        exact ih _ (hlength ▸ hlt) hmem rfl

theorem lexed_of_mem_words {cs : List Char} {token : Token} (hmem : token ∈ words cs) :
    token.Lexed :=
  forall_mem_words Lexed lexed_cut hmem

/-- Only the last token of a text is `eof`. -/
theorem kind_ne_eof_of_mem_words {cs : List Char} {token : Token} (hmem : token ∈ words cs) :
    token.kind ≠ .eof :=
  forall_mem_words (·.kind ≠ .eof) kind_cut_ne_eof hmem

end Frontend.Token
