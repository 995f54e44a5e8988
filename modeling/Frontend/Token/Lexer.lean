import Frontend.Text.Basic
import Frontend.Token.Basic

/-!
# Cutting a source into tokens

`Token.next` skips the gap at the front of a source and cuts off one token;
`Token.tokenize` repeats it up to the end.  The cut is always the longest: a word, a
number, an operator, or else a single character.

A token is never empty, so `length_next_lt` says that what is left is shorter, which
is why the repetition ends.
-/

namespace Frontend.Token

/-! ## Gaps -/

/-- Whether a comment ends before `c`. -/
def isLineBreak (c : Char) : Bool :=
  c == '\r' || c == '\n'

mutual

/-- The source without the white space and the comments at its front. -/
def skipGap : List Char → List Char
  | [] => []
  | c :: cs =>
    if Text.isWhiteSpace c then skipGap cs else if c == '#' then skipComment cs else c :: cs

/-- The source from inside a comment on: the comment runs up to a line break, which
is white space itself. -/
def skipComment : List Char → List Char
  | [] => []
  | c :: cs => if isLineBreak c then skipGap cs else skipComment cs

end

mutual

theorem length_skipGap_le : (cs : List Char) → (skipGap cs).length ≤ cs.length
  | [] => by simp [skipGap]
  | c :: cs => by
    have hgap := length_skipGap_le cs
    have hcomment := length_skipComment_le cs
    simp only [skipGap]
    split
    · simp only [List.length_cons]; omega
    · split <;> simp only [List.length_cons] <;> omega

theorem length_skipComment_le : (cs : List Char) → (skipComment cs).length ≤ cs.length
  | [] => by simp [skipComment]
  | c :: cs => by
    have hgap := length_skipGap_le cs
    have hcomment := length_skipComment_le cs
    simp only [skipComment]
    split <;> simp only [List.length_cons] <;> omega

end

/-! ## One token -/

/-- Whether `c` can continue a word.  Words are ASCII. -/
def isWordChar (c : Char) : Bool :=
  c.isAlphanum || c == '_'

/-- Whether `c` can stand in a number.  Any run of digits and dots is cut as one
number; whether it denotes a value is decided where the value is read. -/
def isNumberChar (c : Char) : Bool :=
  c.isDigit || c == '.'

/-- The token of a word: reserved or an identifier. -/
def ofWord (text : String) : Token :=
  ⟨(reserved.lookup text).getD .identifier, text⟩

/-- The token of a run of digits and dots. -/
def ofNumber (text : List Char) : Token :=
  ⟨if text.contains '.' then .float else .int, String.ofList text⟩

/-- The token of the characters that make up an operator, or part of one, or
neither. -/
def ofSymbol (text : String) : Token :=
  ⟨if Operator.all.contains text then .op else .misc, text⟩

/-- The token at the front of `c :: cs`, which begins with no gap, and what is left
after it. -/
def cut (c : Char) (cs : List Char) : Token × List Char :=
  if c.isAlpha then
    (ofWord (String.ofList (c :: cs.takeWhile isWordChar)), cs.dropWhile isWordChar)
  else if isNumberChar c then
    (ofNumber (c :: cs.takeWhile isNumberChar), cs.dropWhile isNumberChar)
  else
    match cs with
    | d :: ds =>
      if (Operator.followers c).contains d then (ofSymbol (String.ofList [c, d]), ds)
      else (ofSymbol (String.ofList [c]), cs)
    | [] => (ofSymbol (String.ofList [c]), [])

/-- The first token of the source and what is left after it; `eof` if the source is
all gap. -/
def next (cs : List Char) : Token × List Char :=
  match skipGap cs with
  | [] => (eof, [])
  | c :: rest => cut c rest

theorem length_cut_le (c : Char) (cs : List Char) : (cut c cs).2.length ≤ cs.length := by
  have hdrop (p : Char → Bool) : (cs.dropWhile p).length ≤ cs.length :=
    (List.dropWhile_sublist p).length_le
  unfold cut
  split
  · exact hdrop _
  · split
    · exact hdrop _
    · split
      · split <;> simp
      · simp

/-- A token that is cut off leaves a shorter source. -/
theorem length_cut_lt_of_skipGap {cs rest : List Char} {c : Char}
    (hskip : skipGap cs = c :: rest) : (cut c rest).2.length < cs.length := by
  have hgap := length_skipGap_le cs
  have hcut := length_cut_le c rest
  rw [hskip, List.length_cons] at hgap
  omega

/-! ## All tokens -/

/-- The tokens of a source, up to and with the first `eof`. -/
def tokens (cs : List Char) : List Token :=
  match _hskip : skipGap cs with
  | [] => [eof]
  | c :: rest => (cut c rest).1 :: tokens (cut c rest).2
termination_by cs.length
decreasing_by exact length_cut_lt_of_skipGap _hskip

/-- The tokens of a text, up to and with the first `eof`. -/
def tokenize (source : String) : List Token :=
  tokens source.toList

end Frontend.Token
