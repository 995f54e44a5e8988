import Frontend.Binary64.Decimal
import Frontend.Proofs.Binary64.Rounding

/-!
# Literals read back

The decimal text of a number denotes the number again: `decimalValue_decimalDigits` for
whole numbers and `exists_plain_literal` with `ofText?_plain` for floats.  The text of a
float is a plain decimal: digits, a point and digits, without a sign and without an
exponent.
-/

namespace Frontend.Text

/-! ## Digits -/

theorem decimalValue_append (digits digits' : List Char) :
    decimalValue (digits ++ digits') =
      decimalValue digits * 10 ^ digits'.length + decimalValue digits' := by
  show Nat.ofDigitChars 10 (digits ++ digits') 0 = _
  rw [Nat.ofDigitChars_append, Nat.ofDigitChars_eq_ofDigitChars_zero, Nat.mul_comm]
  rfl

@[simp]
theorem decimalValue_decimalDigits (value : Nat) : decimalValue (decimalDigits value) = value :=
  Nat.ofDigitChars_ten_toDigits

@[simp]
theorem decimalValue_replicate_zero (count : Nat) :
    decimalValue (List.replicate count '0') = 0 := by
  show Nat.ofDigitChars 10 (List.replicate count '0') 0 = 0
  rw [Nat.ofDigitChars_replicate_zero, Nat.mul_zero]

@[simp]
theorem decimalValue_paddedDigits (width value : Nat) :
    decimalValue (paddedDigits width value) = value := by
  simp [paddedDigits, decimalValue_append]

theorem decimalDigits_ne_nil (value : Nat) : decimalDigits value ≠ [] :=
  Nat.toDigits_ne_nil

theorem isDigit_of_mem_decimalDigits {value : Nat} {c : Char} (hc : c ∈ decimalDigits value) :
    c.isDigit = true :=
  Nat.isDigit_of_mem_toDigits (by decide) (by decide) hc

theorem isDigit_of_mem_paddedDigits {width value : Nat} {c : Char}
    (hc : c ∈ paddedDigits width value) : c.isDigit = true := by
  rcases List.mem_append.1 hc with hzero | hdigit
  · rw [List.eq_of_mem_replicate hzero]
    rfl
  · exact isDigit_of_mem_decimalDigits hdigit

theorem length_paddedDigits {width value : Nat} (hwidth : 0 < width) (hvalue : value < 10 ^ width) :
    (paddedDigits width value).length = width := by
  have hlength : (decimalDigits value).length ≤ width :=
    (Nat.length_toDigits_le_iff (by decide) hwidth).2 hvalue
  rw [paddedDigits, List.length_append, List.length_replicate]
  omega

end Frontend.Text

namespace Frontend.Binary64

open Text

/-! ## Plain decimals -/

/-- Digits on both sides of a point, and at least one in front of it. -/
structure IsPlain (whole fraction : List Char) : Prop where
  ne_nil : whole ≠ []
  digits : ∀ c ∈ whole ++ fraction, c.isDigit = true

theorem takeWhile_isDigit {whole : List Char} (hwhole : ∀ c ∈ whole, c.isDigit = true)
    (rest : List Char) :
    (whole ++ '.' :: rest).takeWhile Char.isDigit = whole ∧
      (whole ++ '.' :: rest).dropWhile Char.isDigit = '.' :: rest := by
  constructor
  · rw [List.takeWhile_append_of_pos hwhole]
    simp
  · rw [List.dropWhile_append_of_pos hwhole]
    simp

/-- What digits and a point denote, with whatever follows. -/
theorem ofText?_point {whole : List Char} (hwhole : ∀ c ∈ whole, c.isDigit = true)
    (rest : List Char) :
    ofText? (String.ofList (whole ++ '.' :: rest)) =
      if rest.all Char.isDigit && !(whole ++ rest).isEmpty then
        some (ofQuotient (decimalValue (whole ++ rest)) (10 ^ rest.length))
      else none := by
  obtain ⟨htake, hdrop⟩ := takeWhile_isDigit hwhole rest
  unfold ofText?
  rw [String.toList_ofList, htake, hdrop]
  rfl

/-- What a plain decimal denotes. -/
theorem ofText?_plain {whole fraction : List Char} (hplain : IsPlain whole fraction) :
    ofText? (String.ofList (whole ++ '.' :: fraction)) =
      some (ofQuotient (decimalValue (whole ++ fraction)) (10 ^ fraction.length)) := by
  obtain ⟨hne, hdigits⟩ := hplain
  have hwhole : ∀ c ∈ whole, c.isDigit = true := fun c hc =>
    hdigits c (List.mem_append_left _ hc)
  have hfraction : fraction.all Char.isDigit = true :=
    List.all_eq_true.2 fun c hc => hdigits c (List.mem_append_right _ hc)
  rw [ofText?_point hwhole]
  simp [hfraction, hne]

/-! ## The text of a number -/

/-- Either a whole number without a point or a plain decimal, which is rounded to the rank. -/
theorem magnitudeText_cases (rank : Nat) :
    (IsPlain (magnitudeText rank) [] ∧ nearestRank (decimalValue (magnitudeText rank)) 1 = rank) ∨
    ∃ whole fraction, IsPlain whole fraction ∧ magnitudeText rank = whole ++ '.' :: fraction ∧
      nearestRank (decimalValue (whole ++ fraction)) (10 ^ fraction.length) = rank := by
  unfold magnitudeText
  split
  · subst rank
    refine .inl ⟨⟨by simp, fun c hc => ?_⟩, by decide +kernel⟩
    rw [List.append_nil, List.mem_singleton] at hc
    rw [hc]
    rfl
  have hnearest := nearestRank_shortest (Nat.pos_of_ne_zero ‹_›)
  rcases hshortest : shortest rank with ⟨digits, place⟩
  rw [hshortest] at hnearest
  dsimp only at hnearest ⊢
  have hten (count : Nat) : 0 < 10 ^ count := Nat.pow_pos (by decide)
  unfold positional
  split
  · rename_i hplace
    refine .inl ⟨⟨by simp [decimalDigits_ne_nil], fun c hc => ?_⟩, ?_⟩
    · rw [List.append_nil] at hc
      rcases List.mem_append.1 hc with hdigit | hzero
      · exact isDigit_of_mem_decimalDigits hdigit
      · rw [List.eq_of_mem_replicate hzero]
        rfl
    · rw [← hnearest, decimalValue_append, decimalValue_replicate_zero, List.length_replicate,
        decimalValue_decimalDigits, Nat.add_zero, ← nearestRank_mul_right (hten decimalScale),
        Nat.mul_assoc, ← pow_add, Nat.sub_add_cancel hplace, Nat.one_mul]
  · rename_i hplace
    have hlength : (paddedDigits (decimalScale - place)
        (digits % 10 ^ (decimalScale - place))).length = decimalScale - place :=
      length_paddedDigits (by omega) (Nat.mod_lt _ (hten _))
    refine .inr ⟨_, _, ⟨decimalDigits_ne_nil _, fun c hc => ?_⟩, rfl, ?_⟩
    · rcases List.mem_append.1 hc with hwhole | hfraction
      · exact isDigit_of_mem_decimalDigits hwhole
      · exact isDigit_of_mem_paddedDigits hfraction
    · rw [← hnearest, decimalValue_append, hlength, decimalValue_decimalDigits,
        decimalValue_paddedDigits, Nat.div_add_mod', ← nearestRank_mul_right (hten place),
        ← pow_add, Nat.sub_add_cancel (by omega)]

theorem toList_literal (rank : Fin rankBound) :
    (literal (.finite false rank)).toList =
      if '.' ∈ magnitudeText rank then magnitudeText rank
      else magnitudeText rank ++ ['.', '0'] := by
  have htext : (text (.finite false rank)).toList = magnitudeText rank := by
    simp [text]
  unfold literal
  simp only [isFinite, Bool.true_and, htext]
  by_cases hpoint : '.' ∈ magnitudeText rank
  · rw [if_pos hpoint, if_neg (by simp [hpoint]), htext]
  · rw [if_neg hpoint, if_pos (by simp [hpoint]), String.toList_append, htext]
    rfl

/-- The literal of a number without a sign is a plain decimal that denotes the number. -/
theorem exists_plain_literal (rank : Fin rankBound) : ∃ whole fraction, IsPlain whole fraction ∧
    literal (.finite false rank) = String.ofList (whole ++ '.' :: fraction) ∧
    ofText? (literal (.finite false rank)) = some (.finite false rank) := by
  obtain ⟨whole, fraction, hplain, hliteral, hnearest⟩ : ∃ whole fraction,
      IsPlain whole fraction ∧ (literal (.finite false rank)).toList = whole ++ '.' :: fraction ∧
      nearestRank (decimalValue (whole ++ fraction)) (10 ^ fraction.length) = rank := by
    rw [toList_literal]
    rcases magnitudeText_cases rank with
      ⟨⟨hne, hdigits⟩, hnearest⟩ | ⟨whole, fraction, hplain, htext, hnearest⟩
    · rw [List.append_nil] at hdigits
      have hpoint : '.' ∉ magnitudeText rank := fun hmem => absurd (hdigits _ hmem) (by decide)
      refine ⟨magnitudeText rank, ['0'], ⟨hne, ?_⟩, if_neg hpoint, ?_⟩
      · intro c hc
        rcases List.mem_append.1 hc with hwhole | hzero
        · exact hdigits c hwhole
        · rw [List.mem_singleton.1 hzero]
          rfl
      · rw [decimalValue_append, List.length_singleton, pow_one]
        show nearestRank (decimalValue (magnitudeText rank) * 10) (1 * 10) = rank
        rw [nearestRank_mul_right (by decide), hnearest]
    · exact ⟨whole, fraction, hplain, by rw [if_pos (by simp [htext]), htext], hnearest⟩
  have hofList : literal (.finite false rank) = String.ofList (whole ++ '.' :: fraction) := by
    rw [← hliteral, String.ofList_toList]
  refine ⟨whole, fraction, hplain, hofList, ?_⟩
  rw [hofList, ofText?_plain hplain, ofQuotient, hnearest]
  simp

end Frontend.Binary64
