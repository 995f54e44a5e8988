import Frontend.Proofs.Layout

/-!
# Lines

A line break ends every token and every comment, so the tokens of a text are those of its lines,
one line after the other.

A text before a line break is segmented as it is on its own.  Its gaps stay gaps: a comment that
went up to the end of the text now ends at the line break (`Gap.before_line`).  Its lexemes stay
lexemes, since a line break is a blank.  And the line break joins the gap at the end of the text to
the gap at the start of the next line (`Gap.join_line`).
-/

namespace Frontend.Token

/-- A line break behind a text is the first character of it, or the first one stays. -/
theorem head?_before_line {text : List Char} (hend : ∀ c ∈ text.head?, isLineBreak c = true)
    {lineBreak : Char} (hbreak : isLineBreak lineBreak = true) (rest : List Char) :
    ∀ c ∈ (text ++ lineBreak :: rest).head?, isLineBreak c = true := by
  cases text with
  | nil =>
    rintro _ ⟨⟩
    exact hbreak
  | cons d text => exact hend

section LineBreak

variable {lineBreak : Char}

theorem Gap.before_line {rest gap : List Char} (hgap : Gap rest gap)
    (hbreak : isLineBreak lineBreak = true) (rest' : List Char) :
    Gap (rest ++ lineBreak :: rest') gap := by
  induction hgap with
  | nil => exact .nil
  | blank hblank _ ih => exact .blank hblank ih
  | comment hbody hend _ ih =>
    refine .comment hbody ?_ ih
    rw [← List.append_assoc]
    exact head?_before_line hend hbreak rest'

theorem Gap.join_line {gap rest gap' : List Char} (hgap : Gap [] gap)
    (hbreak : isLineBreak lineBreak = true) (hgap' : Gap rest gap') :
    Gap rest (gap ++ lineBreak :: gap') := by
  induction hgap with
  | nil => exact .blank (isWhiteSpace_of_isLineBreak hbreak) hgap'
  | blank hblank _ ih => exact .blank hblank ih
  | @comment body gap hbody hend _ ih =>
    rw [List.append_nil] at hend
    rw [List.cons_append, List.append_assoc]
    refine .comment hbody ?_ ih
    rw [List.append_assoc]
    exact head?_before_line hend hbreak (gap' ++ rest)

/-- The segments of two texts with a line break between them are those of the first and then those
of the second. -/
theorem Segmentation.join_line {cs cs' : List Char} {tokens tokens' : List Token}
    (hsegments : Segmentation cs tokens) (hbreak : isLineBreak lineBreak = true)
    (hsegments' : Segmentation cs' tokens') :
    Segmentation (cs ++ lineBreak :: cs') (tokens ++ tokens') := by
  induction hsegments with
  | @nil gap hgap =>
    cases hsegments' with
    | nil hgap' => exact .nil (hgap.join_line hbreak hgap')
    | @cons gap' rest token tokens hgap' htoken hrest =>
      have hjoined := Segmentation.cons (hgap.join_line hbreak hgap') htoken hrest
      rwa [List.append_assoc, List.cons_append] at hjoined
  | @cons gap rest token tokens hgap htoken _ ih =>
    have hblank := isWhiteSpace_of_isLineBreak hbreak
    have hgap := hgap.before_line hbreak cs'
    have htoken := htoken.before_blank (List.prefix_refl rest) hblank cs'
    rw [List.append_assoc] at hgap
    rw [List.append_assoc, List.append_assoc]
    exact .cons hgap htoken ih

end LineBreak

/-- The tokens of two texts with a line break between them are the tokens of the first one up to its
end, whatever it ends with, and then the tokens of the second one. -/
theorem tokenize_append_line (first second : String) :
    ∃ tokens, tokenize first = tokens ++ [eof] ∧
      tokenize (first ++ "\n" ++ second) = tokens ++ tokenize second := by
  refine ⟨words first.toList, tokens_eq_words_append first.toList, ?_⟩
  have hsegments : Segmentation (first.toList ++ '\n' :: second.toList)
      (words first.toList ++ words second.toList) :=
    (segmentation_words first.toList).join_line rfl (segmentation_words second.toList)
  have htext : (first ++ "\n" ++ second).toList = first.toList ++ '\n' :: second.toList := by
    simp
  show tokens (first ++ "\n" ++ second).toList = _ ++ tokens second.toList
  rw [htext, tokens_eq_words_append, tokens_eq_words_append second.toList, hsegments.words_eq,
    List.append_assoc]

/-- A comment, an operator and a number end at the line break. -/
example : tokenize "a # b <\n= 1.\n2" =
    [⟨.identifier, "a"⟩, ⟨.misc, "="⟩, ⟨.float, "1."⟩, ⟨.int, "2"⟩, eof] := by
  decide +kernel

end Frontend.Token
