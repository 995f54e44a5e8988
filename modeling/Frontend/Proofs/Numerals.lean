import Frontend.Proofs.Binary64.Closest
import Frontend.Proofs.Binary64.Literal
import Frontend.Expr.Parser
import Frontend.Proofs.Words
import Mathlib.Data.Nat.Digits.Defs

/-!
# What numbers denote

A run of digits denotes its decimal value, and a run of digits with one point in it a rational
number.  The literals of the language denote these values: an integer literal exactly and up to
`2 ^ 31 - 1`, a float literal rounded to the nearest number of the format.

- `numeral`, `decimalFraction`: the values, digit by digit
- `ofText?_eq_none`, `exists_ofText?_eq`: what a run of digits and points denotes
- `numerals_denote`: what the parsers of literals answer
-/

namespace Frontend

namespace Text

/-- The value of decimal digits, the most significant one first. -/
def numeral (digits : List Char) : Nat :=
  Nat.ofDigits 10 (digits.map fun digit => digit.toNat - '0'.toNat).reverse

/-- The value of digits with a point among them. -/
def decimalFraction (text : List Char) : ℚ :=
  let whole := text.takeWhile (· != '.')
  let fraction := (text.dropWhile (· != '.')).tail
  numeral whole + numeral fraction / 10 ^ fraction.length

theorem decimalValue_eq_numeral (digits : List Char) : decimalValue digits = numeral digits := by
  induction digits using List.reverseRecOn with
  | nil => rfl
  | append_singleton digits digit ih =>
    have hlast : decimalValue [digit] = digit.toNat - '0'.toNat := by
      simp [decimalValue]
    have hnumeral : numeral (digits ++ [digit]) =
        digit.toNat - '0'.toNat + 10 * numeral digits := by
      simp [numeral, Nat.ofDigits_cons]
    rw [decimalValue_append, hlast, hnumeral, ih]
    simp
    omega

/-- The digits on both sides of a point make up the numerator. -/
theorem decimalFraction_point {whole : List Char} (hwhole : '.' ∉ whole) (fraction : List Char) :
    decimalFraction (whole ++ '.' :: fraction) =
      (decimalValue (whole ++ fraction) : ℚ) / ((10 ^ fraction.length : Nat) : ℚ) := by
  have hrun : ∀ c ∈ whole, (c != '.') = true := by
    intro c hc
    simp only [bne_iff_ne]
    rintro rfl
    exact hwhole hc
  have hten : ((10 ^ fraction.length : Nat) : ℚ) ≠ 0 := by positivity
  have htake : (whole ++ '.' :: fraction).takeWhile (· != '.') = whole := by
    rw [List.takeWhile_append_of_pos hrun]
    simp
  have hdrop : (whole ++ '.' :: fraction).dropWhile (· != '.') = '.' :: fraction := by
    rw [List.dropWhile_append_of_pos hrun]
    simp
  unfold decimalFraction
  rw [htake, hdrop, List.tail_cons, decimalValue_append, decimalValue_eq_numeral,
    decimalValue_eq_numeral, Nat.cast_add, Nat.cast_mul, add_div, mul_div_cancel_right₀ _ hten,
    Nat.cast_pow, Nat.cast_ofNat]

end Text

/-! ## Runs of digits and points -/

namespace Token

/-- Without a point, a run of digits and points is one of digits. -/
theorem all_isDigit_iff {text : List Char} (hnumber : ∀ c ∈ text, isNumberChar c = true) :
    text.all Char.isDigit = true ↔ '.' ∉ text := by
  rw [List.all_eq_true]
  constructor
  · intro hdigits hpoint
    exact absurd (hdigits _ hpoint) (by decide)
  · intro hpoint c hc
    have hchar := hnumber c hc
    rw [isNumberChar, Bool.or_eq_true, beq_iff_eq] at hchar
    rcases hchar with hdigit | rfl
    · exact hdigit
    · exact absurd hc hpoint

end Token

namespace Binary64

open Text

/-- One point and at least one digit. -/
def IsDecimal (text : List Char) : Prop :=
  text.count '.' = 1 ∧ ∃ c ∈ text, c.isDigit = true

/-- A run of digits and points is cut at its first point. -/
theorem exists_eq_point {text : List Char} (hpoint : '.' ∈ text)
    (hnumber : ∀ c ∈ text, Token.isNumberChar c = true) :
    ∃ whole rest, text = whole ++ '.' :: rest ∧ '.' ∉ whole ∧
      (∀ c ∈ whole, c.isDigit = true) ∧ ∀ c ∈ rest, Token.isNumberChar c = true := by
  obtain ⟨whole, rest, rfl, hwhole⟩ := List.eq_append_cons_of_mem hpoint
  have hfront : ∀ c ∈ whole, Token.isNumberChar c = true := fun c hc =>
    hnumber c (List.mem_append_left _ hc)
  have hback : ∀ c ∈ rest, Token.isNumberChar c = true := fun c hc =>
    hnumber c (List.mem_append_right _ (List.mem_cons_of_mem _ hc))
  exact ⟨whole, rest, rfl, hwhole, List.all_eq_true.1 ((Token.all_isDigit_iff hfront).2 hwhole),
    hback⟩

theorem isDecimal_point_iff {whole rest : List Char} (hwhole : '.' ∉ whole)
    (hdigits : ∀ c ∈ whole, c.isDigit = true)
    (hnumber : ∀ c ∈ rest, Token.isNumberChar c = true) :
    IsDecimal (whole ++ '.' :: rest) ↔
      (rest.all Char.isDigit && !(whole ++ rest).isEmpty) = true := by
  have hcount : (whole ++ '.' :: rest).count '.' = 1 ↔ '.' ∉ rest := by
    simp [List.count_append, List.count_eq_zero.2 hwhole, List.count_eq_zero]
  rw [IsDecimal, hcount, Bool.and_eq_true, Token.all_isDigit_iff hnumber]
  refine and_congr_right fun hpoint => ?_
  have hrest := List.all_eq_true.1 ((Token.all_isDigit_iff hnumber).2 hpoint)
  rw [Bool.not_eq_true', List.isEmpty_eq_false_iff_exists_mem]
  constructor
  · rintro ⟨c, hc, hdigit⟩
    rcases List.mem_append.1 hc with hmem | hmem
    · exact ⟨c, List.mem_append_left _ hmem⟩
    · rcases List.mem_cons.1 hmem with rfl | hmem
      · exact absurd hdigit (by decide)
      · exact ⟨c, List.mem_append_right _ hmem⟩
  · rintro ⟨c, hc⟩
    rcases List.mem_append.1 hc with hmem | hmem
    · exact ⟨c, List.mem_append_left _ hmem, hdigits c hmem⟩
    · exact ⟨c, List.mem_append_right _ (List.mem_cons_of_mem _ hmem), hrest c hmem⟩

section Runs

variable {text : String} (hpoint : '.' ∈ text.toList)
  (hnumber : ∀ c ∈ text.toList, Token.isNumberChar c = true)
include hpoint hnumber

/-- A run of digits with one point is rounded from its value. -/
theorem exists_ofText?_eq (hdecimal : IsDecimal text.toList) :
    ∃ num den : Nat, 0 < den ∧ decimalFraction text.toList = (num : ℚ) / den ∧
      ofText? text = some (ofQuotient num den) := by
  obtain ⟨whole, rest, htext, hwhole, hdigits, hrest⟩ := exists_eq_point hpoint hnumber
  rw [htext, isDecimal_point_iff hwhole hdigits hrest] at hdecimal
  refine ⟨decimalValue (whole ++ rest), 10 ^ rest.length, Nat.pow_pos (by decide), ?_, ?_⟩
  · rw [htext, decimalFraction_point hwhole]
  · rw [← text.ofList_toList, htext, ofText?_point hdigits, if_pos hdecimal]

theorem ofText?_eq_none (hdecimal : ¬IsDecimal text.toList) : ofText? text = none := by
  obtain ⟨whole, rest, htext, hwhole, hdigits, hrest⟩ := exists_eq_point hpoint hnumber
  rw [htext, isDecimal_point_iff hwhole hdigits hrest] at hdecimal
  rw [← text.ofList_toList, htext, ofText?_point hdigits, if_neg hdecimal]

end Runs

end Binary64

/-! ## Literals -/

namespace Token

/-- The text of an integer is a run of digits, and that of a float a run of digits and points with
a point in it. -/
def HasNumeral (token : Token) : Prop :=
  (token.kind = .int → token.text.toList ≠ [] ∧ ∀ c ∈ token.text.toList, c.isDigit = true) ∧
  (token.kind = .float →
    '.' ∈ token.text.toList ∧ ∀ c ∈ token.text.toList, isNumberChar c = true)

theorem hasNumeral_ofWord (text : String) : (ofWord text).HasNumeral := by
  have hall : ∀ entry ∈ reserved, entry.2 ≠ .int ∧ entry.2 ≠ .float := by decide
  have hkind : (ofWord text).kind ≠ .int ∧ (ofWord text).kind ≠ .float := by
    rcases kind_ofWord text with ⟨hkind, -⟩ | hreserved
    · rw [hkind]
      decide
    · exact hall _ hreserved
  exact ⟨fun hint => absurd hint hkind.1, fun hfloat => absurd hfloat hkind.2⟩

theorem hasNumeral_ofNumber {text : List Char} (hne : text ≠ [])
    (hnumber : ∀ c ∈ text, isNumberChar c = true) : (ofNumber text).HasNumeral := by
  unfold HasNumeral ofNumber
  dsimp only
  rw [String.toList_ofList]
  by_cases hpoint : '.' ∈ text
  · rw [if_pos (List.contains_iff_mem.2 hpoint)]
    exact ⟨by simp, fun _ => ⟨hpoint, hnumber⟩⟩
  · rw [if_neg (mt List.contains_iff_mem.1 hpoint)]
    exact ⟨fun _ => ⟨hne, List.all_eq_true.1 ((all_isDigit_iff hnumber).2 hpoint)⟩, by simp⟩

theorem hasNumeral_ofSymbol (text : String) : (ofSymbol text).HasNumeral := by
  have hkind : (ofSymbol text).kind ≠ .int ∧ (ofSymbol text).kind ≠ .float := by
    unfold ofSymbol
    dsimp only
    split <;> decide
  exact ⟨fun hint => absurd hint hkind.1, fun hfloat => absurd hfloat hkind.2⟩

theorem hasNumeral_cut (c : Char) (cs : List Char) : (cut c cs).1.HasNumeral := by
  unfold cut
  split
  · exact hasNumeral_ofWord _
  · split
    · rename_i hc
      refine hasNumeral_ofNumber (List.cons_ne_nil _ _) (List.forall_mem_cons.2 ⟨hc, ?_⟩)
      intro d hd
      exact List.all_eq_true.1 List.all_takeWhile d hd
    · split
      · split <;> exact hasNumeral_ofSymbol _
      · exact hasNumeral_ofSymbol _

/-- The numbers among the tokens of a source have such texts. -/
theorem hasNumeral_of_mem_tokenize {source : String} {token : Token}
    (hmem : token ∈ tokenize source) : token.HasNumeral := by
  rw [tokenize, tokens_eq_words_append, List.mem_append, List.mem_singleton] at hmem
  rcases hmem with hword | rfl
  · exact forall_mem_words HasNumeral hasNumeral_cut hword
  · exact ⟨by simp [eof], by simp [eof]⟩

end Token

namespace Parser

open Text Binary64

variable {α : Type} {state : State}

/-- A token of the kind that is expected is passed over. -/
theorem expect_bind_eq {kind : Token.Kind} (hkind : state.current.kind = kind) (expected : String)
    (next : Token → Parser α) :
    (expect kind expected >>= next) state = next state.current state.advance := by
  have hexpect : expect kind expected state = .ok state.current state.advance := by
    show (if state.current.kind = kind then advance
      else unexpected expected : Parser Token) state = _
    rw [if_pos hkind]
    rfl
  simp only [Bind.bind, EStateM.bind, hexpect]

theorem intLiteral_eq (hkind : state.current.kind = .int) :
    intLiteral state =
      if numeral state.current.text.toList ≤ 2 ^ 31 - 1 then
        .ok (numeral state.current.text.toList : Int) state.advance
      else .error (.invalidLiteral "int" state.current.text) state.advance := by
  unfold intLiteral
  rw [expect_bind_eq hkind, decimalValue_eq_numeral]
  by_cases hsmall : numeral state.current.text.toList ≤ 2 ^ 31 - 1
  · rw [if_pos hsmall, if_pos (by omega)]
    rfl
  · rw [if_neg hsmall, if_neg (by omega)]
    rfl

theorem floatLiteral_eq_ok {value : Binary64} (hkind : state.current.kind = .float)
    (hvalue : ofText? state.current.text = some value) (hfinite : value.isFinite = true) :
    floatLiteral state = .ok value state.advance := by
  have hfilter : (ofText? state.current.text).filter isFinite = some value := by
    rw [hvalue, Option.filter_some, if_pos hfinite]
  unfold floatLiteral
  rw [expect_bind_eq hkind, hfilter]
  rfl

theorem floatLiteral_eq_error (hkind : state.current.kind = .float)
    (hvalue : ∀ value, ofText? state.current.text = some value → value.isFinite = false) :
    floatLiteral state = .error (.invalidLiteral "float" state.current.text) state.advance := by
  have hfilter : (ofText? state.current.text).filter isFinite = none := by
    rw [Option.filter_eq_none_iff]
    intro value hmem
    rw [hvalue value hmem]
    decide
  unfold floatLiteral
  rw [expect_bind_eq hkind, hfilter]
  rfl

/-- The numbers of a source are runs of digits, and of digits and points.  An integer literal
denotes its decimal value up to `2 ^ 31 - 1`.  A float literal that has one point and a digit
denotes the number nearest to its value, up to the middle between the largest number and the power
of two after it.  All others are invalid.  In each case one token is passed over. -/
theorem numerals_denote :
    (∀ source token, token ∈ Token.tokenize source → token.HasNumeral) ∧
    ∀ state : State, state.current.HasNumeral →
      let text := state.current.text.toList
      (state.current.kind = .int → intLiteral state =
        if numeral text ≤ 2 ^ 31 - 1 then .ok (numeral text : Int) state.advance
        else .error (.invalidLiteral "int" state.current.text) state.advance) ∧
      (state.current.kind = .float →
        (IsDecimal text ∧ decimalFraction text < 2 ^ 1024 - 2 ^ 970 →
          ∃ rank, floatLiteral state = .ok (.finite false rank) state.advance ∧
            RoundsTo (decimalFraction text) (.finite false rank)) ∧
        (¬(IsDecimal text ∧ decimalFraction text < 2 ^ 1024 - 2 ^ 970) →
          floatLiteral state =
            .error (.invalidLiteral "float" state.current.text) state.advance)) := by
  refine ⟨fun source token => Token.hasNumeral_of_mem_tokenize, ?_⟩
  intro state hnumeral text
  refine ⟨intLiteral_eq, fun hkind => ?_⟩
  obtain ⟨hpoint, hnumber⟩ := hnumeral.2 hkind
  refine ⟨fun haccepted => ?_, fun hrejected => floatLiteral_eq_error hkind fun value hvalue => ?_⟩
  · obtain ⟨hdecimal, hless⟩ := haccepted
    obtain ⟨num, den, hden, hfraction, hvalue⟩ := exists_ofText?_eq hpoint hnumber hdecimal
    rw [hfraction] at hless ⊢
    obtain ⟨rank, hrank, hrounds⟩ := exists_ofQuotient_eq hden hless
    rw [hrank] at hvalue
    exact ⟨rank, floatLiteral_eq_ok hkind hvalue rfl, hrounds⟩
  · by_cases hdecimal : IsDecimal text
    · obtain ⟨num, den, hden, hfraction, hvalue'⟩ := exists_ofText?_eq hpoint hnumber hdecimal
      rw [hfraction] at hrejected
      have hmore : ¬(num : ℚ) / den < 2 ^ 1024 - 2 ^ 970 := fun hless => hrejected ⟨hdecimal, hless⟩
      rw [ofQuotient_eq_infinite hden hmore, hvalue] at hvalue'
      cases hvalue'
      rfl
    · rw [ofText?_eq_none hpoint hnumber hdecimal] at hvalue
      cases hvalue

/-- The largest integer with zeros in front, a float half-way between two numbers, and two texts
that are no literals. -/
theorem numerals_denote_hard :
    intLiteral (.ofSource "002147483647") =
      .ok 2147483647 (State.ofSource "002147483647").advance ∧
    intLiteral (.ofSource "2147483648") =
      .error (.invalidLiteral "int" "2147483648") (State.ofSource "2147483648").advance ∧
    (∃ rank, floatLiteral (.ofSource "9007199254740993.") =
        .ok (.finite false rank) (State.ofSource "9007199254740993.").advance ∧
      RoundsTo 9007199254740993 (.finite false rank)) ∧
    floatLiteral (.ofSource "1.2.3") =
      .error (.invalidLiteral "float" "1.2.3") (State.ofSource "1.2.3").advance := by
  have hnumeral (source : String)
      (hmem : (State.ofSource source).current ∈ Token.tokenize source) :=
    numerals_denote.2 (.ofSource source) (numerals_denote.1 source _ hmem)
  refine ⟨?_, ?_, ?_, ?_⟩
  · exact (hnumeral "002147483647" (by decide +kernel)).1 (by decide +kernel)
  · exact (hnumeral "2147483648" (by decide +kernel)).1 (by decide +kernel)
  · have hvalue : decimalFraction "9007199254740993.".toList = 9007199254740993 := by
      have hdigits : decimalValue ("9007199254740993".toList ++ []) = 9007199254740993 := by
        decide +kernel
      rw [show "9007199254740993.".toList = "9007199254740993".toList ++ '.' :: [] from rfl,
        decimalFraction_point (by decide), hdigits]
      norm_num
    have hless : (9007199254740993 : ℚ) < 2 ^ 1024 - 2 ^ 970 := by
      have hrank := (nearestRank_lt_iff 9007199254740993 Nat.one_pos).1 (by decide +kernel)
      rwa [Nat.cast_one, div_one] at hrank
    have hfloat := (hnumeral "9007199254740993." (by decide +kernel)).2 (by decide +kernel)
    rw [← hvalue] at hless ⊢
    exact hfloat.1 ⟨⟨by decide +kernel, '9', by decide +kernel, by decide⟩, hless⟩
  · have hfloat := (hnumeral "1.2.3" (by decide +kernel)).2 (by decide +kernel)
    exact hfloat.2 fun haccepted => absurd haccepted.1.1 (by decide +kernel)

end Parser

end Frontend
