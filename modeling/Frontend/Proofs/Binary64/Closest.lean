import Frontend.Proofs.Binary64.Rounding
import Mathlib.Algebra.Order.Field.Basic
import Mathlib.Algebra.Order.Ring.Rat
import Mathlib.Order.Monotone.Basic
import Mathlib.Tactic.FieldSimp
import Mathlib.Tactic.Positivity

/-!
# The nearest number

`ofQuotient` rounds a quotient: it looks for the exponent at which the quotient has `53` bits and
rounds to a whole mantissa there.  Here the outcome is compared with all other numbers of the
format, as rational numbers.

- `nearestRank_middle_below`, `nearestRank_middle_above`: the quotient lies between the middles of
  the rank and its neighbours, and on one of them only if the rank is even
- `RoundsTo`: no number of the format is nearer, and among those that are equally near it is
  the one whose bit pattern is even
- `nearestRank_lt_iff`: the outcome is finite up to the middle between the largest number and the
  power of two after it
-/

namespace Frontend.Binary64

/-! ## Mantissas -/

theorem units_strictMono : StrictMono units :=
  strictMono_nat_of_lt_succ units_lt_units_succ

theorem isNearest_roundQuotient (num : Nat) {den : Nat} (hden : 0 < den) :
    IsNearest num den (roundQuotient num den) := by
  have hnum : num / den * den + num % den = num := Nat.div_add_mod' num den
  have hmod : num % den < den := Nat.mod_lt num hden
  unfold roundQuotient
  dsimp only
  split
  · exact ⟨by omega, by omega, by omega⟩
  · have hsucc : (num / den + 1) * den = num / den * den + den := Nat.succ_mul _ _
    exact ⟨by omega, by omega, by omega⟩

/-- The bits of a number beyond the `53` of a mantissa, as a power of two. -/
theorem lt_two_pow_excess (whole : Nat) : whole < 2 ^ (53 + (whole.log2 - 52)) := by
  have hpow : 2 ^ (whole.log2 + 1) ≤ 2 ^ (53 + (whole.log2 - 52)) :=
    Nat.pow_le_pow_right (by decide) (by omega)
  exact Nat.lt_of_lt_of_le Nat.lt_log2_self hpow

theorem two_pow_excess_le {whole : Nat} (hexcess : 0 < whole.log2 - 52) :
    2 ^ (52 + (whole.log2 - 52)) ≤ whole := by
  have hne : whole ≠ 0 := by
    rintro rfl
    exact absurd hexcess (by decide)
  rw [show 52 + (whole.log2 - 52) = whole.log2 by omega]
  exact Nat.log2_self_le hne

/-- A quotient is rounded to a mantissa at some exponent.  Unless the exponent is the least one,
the quotient has `53` bits there. -/
theorem exists_nearest_mantissa (num : Nat) {den : Nat} (hden : 0 < den) :
    ∃ exponent mantissa, nearestRank num den = exponent * 2 ^ 52 + mantissa ∧
      mantissa ≤ 2 ^ 53 ∧
      (exponent = 0 ∨
        2 ^ 52 ≤ mantissa ∧ 2 ^ 52 * (den * 2 ^ exponent) ≤ num * 2 ^ 1074) ∧
      IsNearest (num * 2 ^ 1074) (den * 2 ^ exponent) mantissa := by
  unfold nearestRank
  -- the power stays as it is, and is not computed
  generalize 1074 = scale
  let scaled := num * 2 ^ scale
  let exponent := (scaled / den).log2 - 52
  let step := den * 2 ^ exponent
  have hstep : 0 < step := Nat.mul_pos hden (Nat.two_pow_pos exponent)
  have hnearest : IsNearest scaled step (roundQuotient scaled step) :=
    isNearest_roundQuotient scaled hstep
  obtain ⟨hlow, hhigh, -⟩ := hnearest
  have hscale (bits : Nat) : 2 ^ (bits + exponent) * den = 2 ^ bits * step := by
    rw [pow_add, Nat.mul_assoc, Nat.mul_comm _ den]
  refine ⟨exponent, roundQuotient scaled step, rfl, ?_, ?_, isNearest_roundQuotient scaled hstep⟩
  · have hbound : scaled < 2 ^ 53 * step := by
      rw [← hscale]
      exact (Nat.div_lt_iff_lt_mul hden).1 (lt_two_pow_excess (scaled / den))
    by_contra hmore
    have hmul : (2 ^ 53 + 1) * step ≤ roundQuotient scaled step * step :=
      Nat.mul_le_mul_right step (by omega)
    omega
  · rcases Nat.eq_zero_or_pos exponent with hzero | hpos
    · exact .inl hzero
    · have hbits : 2 ^ 52 * step ≤ scaled := by
        rw [← hscale]
        exact (Nat.le_div_iff_mul_le hden).1 (two_pow_excess_le hpos)
      refine .inr ⟨?_, hbits⟩
      by_contra hless
      have hmul : (roundQuotient scaled step + 1) * step ≤ 2 ^ 52 * step :=
        Nat.mul_le_mul_right step (by omega)
      rw [Nat.succ_mul] at hmul
      omega

/-! ## Middles -/

/-- The neighbour above is at least one step away. -/
theorem units_add_le_units_succ {exponent mantissa : Nat} (hmantissa : mantissa ≤ 2 ^ 53)
    (hnormal : exponent = 0 ∨ 2 ^ 52 ≤ mantissa) :
    (mantissa + 1) * 2 ^ exponent ≤ units (exponent * 2 ^ 52 + mantissa + 1) := by
  by_cases htop : mantissa = 2 ^ 53
  · have hrank : exponent * 2 ^ 52 + mantissa + 1 = (exponent + 1) * 2 ^ 52 + (2 ^ 52 + 1) := by
      omega
    rw [hrank, units_eq (by omega) (by omega), pow_succ, htop]
    omega
  · rw [Nat.add_assoc, units_eq (by omega) (by omega)]

/-- The neighbour below is one step away, unless the mantissa is the least one of its exponent. -/
theorem units_pred {exponent mantissa : Nat} (hmantissa : mantissa ≤ 2 ^ 53) (hpos : 0 < mantissa)
    (hnormal : exponent = 0 ∨ 2 ^ 52 < mantissa) :
    units (exponent * 2 ^ 52 + mantissa - 1) = (mantissa - 1) * 2 ^ exponent := by
  rw [Nat.add_sub_assoc hpos, units_eq (by omega) (by omega)]

theorem nearestRank_middle_below (num : Nat) {den : Nat} (hden : 0 < den) :
    let rank := nearestRank num den
    (units (rank - 1) + units rank) * den ≤ 2 * (num * 2 ^ 1074) ∧
      (rank % 2 = 1 → (units (rank - 1) + units rank) * den < 2 * (num * 2 ^ 1074)) := by
  obtain ⟨exponent, mantissa, hrank, hmantissa, hnormal, hnearest⟩ :=
    exists_nearest_mantissa num hden
  intro rank
  have hunits : units rank = mantissa * 2 ^ exponent := by
    rw [show rank = _ from hrank, units_eq hmantissa (hnormal.imp id And.left)]
  have hparity : rank % 2 = 1 → mantissa % 2 = 1 := by omega
  obtain ⟨hlow, -, hodd⟩ := hnearest
  have hswap : den * 2 ^ exponent = 2 ^ exponent * den := Nat.mul_comm _ _
  rw [hswap] at hlow hodd hnormal
  by_cases hleast : exponent = 0 ∨ 2 ^ 52 < mantissa
  · rcases Nat.eq_zero_or_pos mantissa with hzero | hpos
    · obtain rfl : exponent = 0 := by omega
      have hsum : (units (rank - 1) + units rank) * den = 0 := by
        rw [show rank = 0 by omega]
        exact Nat.zero_mul den
      exact ⟨by omega, by omega⟩
    · have hpred : units (rank - 1) = (mantissa - 1) * 2 ^ exponent := by
        rw [show rank = _ from hrank, units_pred hmantissa hpos hleast]
      have hsum : (units (rank - 1) + units rank) * den + 2 ^ exponent * den =
          2 * (mantissa * (2 ^ exponent * den)) := by
        obtain ⟨less, rfl⟩ : ∃ less, mantissa = less + 1 := ⟨mantissa - 1, by omega⟩
        rw [hpred, hunits, Nat.add_sub_cancel]
        ring
      exact ⟨by omega, fun hrank => by have := hodd (hparity hrank); omega⟩
  · -- The rank is that of a power of two, and the quotient is not below it.
    obtain rfl : mantissa = 2 ^ 52 := by omega
    have hbits : 2 ^ 52 * (2 ^ exponent * den) ≤ num * 2 ^ 1074 := by omega
    have hle : units (rank - 1) ≤ units rank := units_strictMono.monotone (Nat.sub_le rank 1)
    have hsum : (units (rank - 1) + units rank) * den ≤ (units rank + units rank) * den :=
      Nat.mul_le_mul_right den (Nat.add_le_add_right hle _)
    have htwice : (units rank + units rank) * den = 2 * (2 ^ 52 * (2 ^ exponent * den)) := by
      rw [hunits]
      ring
    exact ⟨by omega, by omega⟩

theorem nearestRank_middle_above (num : Nat) {den : Nat} (hden : 0 < den) :
    let rank := nearestRank num den
    2 * (num * 2 ^ 1074) ≤ (units rank + units (rank + 1)) * den ∧
      (rank % 2 = 1 → 2 * (num * 2 ^ 1074) < (units rank + units (rank + 1)) * den) := by
  obtain ⟨exponent, mantissa, hrank, hmantissa, hnormal, hnearest⟩ :=
    exists_nearest_mantissa num hden
  intro rank
  have hnormal' : exponent = 0 ∨ 2 ^ 52 ≤ mantissa := hnormal.imp id And.left
  have hunits : units rank = mantissa * 2 ^ exponent := by
    rw [show rank = _ from hrank, units_eq hmantissa hnormal']
  have hnext : (mantissa + 1) * 2 ^ exponent ≤ units (rank + 1) := by
    rw [show rank = _ from hrank]
    exact units_add_le_units_succ hmantissa hnormal'
  have hparity : rank % 2 = 1 → mantissa % 2 = 1 := by omega
  obtain ⟨-, hhigh, hodd⟩ := hnearest
  have hsum : 2 * (mantissa * (den * 2 ^ exponent)) + den * 2 ^ exponent ≤
      (units rank + units (rank + 1)) * den := by
    calc 2 * (mantissa * (den * 2 ^ exponent)) + den * 2 ^ exponent
      _ = (mantissa * 2 ^ exponent + (mantissa + 1) * 2 ^ exponent) * den := by ring
      _ ≤ (units rank + units (rank + 1)) * den := by
        rw [hunits]
        exact Nat.mul_le_mul_right den (Nat.add_le_add_left hnext _)
  exact ⟨by omega, fun hrank => by have := hodd (hparity hrank); omega⟩

/-! ## Rational values -/

/-- The magnitude of the given rank. -/
def magnitude (rank : Nat) : ℚ :=
  units rank / 2 ^ 1074

theorem magnitude_strictMono : StrictMono magnitude := by
  intro rank other hlt
  have hunits : (units rank : ℚ) < units other := Nat.cast_lt.2 (units_strictMono hlt)
  exact div_lt_div_of_pos_right hunits (by positivity)

theorem magnitude_zero : magnitude 0 = 0 := by
  simp [magnitude, units]

/-- Twice a quotient and the sum of two magnitudes, with one denominator. -/
theorem two_mul_quotient_eq (num : Nat) {den : Nat} (hden : 0 < den) :
    2 * ((num : ℚ) / den) = ((2 * (num * 2 ^ 1074) : Nat) : ℚ) / (den * 2 ^ 1074) := by
  have hcast : (den : ℚ) ≠ 0 := Nat.cast_ne_zero.2 hden.ne'
  rw [Nat.cast_mul, Nat.cast_mul, Nat.cast_pow, Nat.cast_ofNat]
  field_simp

theorem magnitude_add_magnitude_eq (rank other : Nat) {den : Nat} (hden : 0 < den) :
    magnitude rank + magnitude other =
      (((units rank + units other) * den : Nat) : ℚ) / (den * 2 ^ 1074) := by
  have hcast : (den : ℚ) ≠ 0 := Nat.cast_ne_zero.2 hden.ne'
  rw [magnitude, magnitude, Nat.cast_mul, Nat.cast_add]
  field_simp

section Middles

variable {num den other : Nat} (hden : 0 < den)
include hden

/-- The quotient is not below the middle between its rank and a lesser one, and above it if the
rank is odd. -/
theorem middle_below (hother : other < nearestRank num den) :
    magnitude other + magnitude (nearestRank num den) ≤ 2 * ((num : ℚ) / den) ∧
      (nearestRank num den % 2 = 1 →
        magnitude other + magnitude (nearestRank num den) < 2 * ((num : ℚ) / den)) := by
  obtain ⟨hle, hlt⟩ := nearestRank_middle_below num hden
  have hscale : (0 : ℚ) < den * 2 ^ 1074 := by positivity
  have hbelow : magnitude other ≤ magnitude (nearestRank num den - 1) :=
    magnitude_strictMono.monotone (Nat.le_sub_one_of_lt hother)
  have hsum := add_le_add_left hbelow (magnitude (nearestRank num den))
  rw [magnitude_add_magnitude_eq (nearestRank num den - 1) _ hden] at hsum
  rw [two_mul_quotient_eq num hden]
  refine ⟨hsum.trans ?_, fun hodd => hsum.trans_lt ?_⟩
  · exact div_le_div_of_nonneg_right (Nat.cast_le.2 hle) hscale.le
  · exact div_lt_div_of_pos_right (Nat.cast_lt.2 (hlt hodd)) hscale

theorem middle_above (hother : nearestRank num den < other) :
    2 * ((num : ℚ) / den) ≤ magnitude (nearestRank num den) + magnitude other ∧
      (nearestRank num den % 2 = 1 →
        2 * ((num : ℚ) / den) < magnitude (nearestRank num den) + magnitude other) := by
  obtain ⟨hle, hlt⟩ := nearestRank_middle_above num hden
  have hscale : (0 : ℚ) < den * 2 ^ 1074 := by positivity
  have habove : magnitude (nearestRank num den + 1) ≤ magnitude other :=
    magnitude_strictMono.monotone hother
  have hsum := add_le_add_right habove (magnitude (nearestRank num den))
  rw [magnitude_add_magnitude_eq _ (nearestRank num den + 1) hden] at hsum
  rw [two_mul_quotient_eq num hden]
  refine ⟨le_trans ?_ hsum, fun hodd => lt_of_lt_of_le ?_ hsum⟩
  · exact div_le_div_of_nonneg_right (Nat.cast_le.2 hle) hscale.le
  · exact div_lt_div_of_pos_right (Nat.cast_lt.2 (hlt hodd)) hscale

end Middles

/-! ## The nearest number -/

/-- The value of a finite number. -/
def toRat? : Binary64 → Option ℚ
  | .finite negative rank => some (if negative then -magnitude rank else magnitude rank)
  | _ => none

/-- The number is finite, no finite number is nearer to the value, and if one with another value
is equally near, the bit pattern of the number is even. -/
def RoundsTo (value : ℚ) (number : Binary64) : Prop :=
  ∃ mine, number.toRat? = some mine ∧ ∀ other theirs, toRat? other = some theirs →
    |mine - value| ≤ |theirs - value| ∧
      (theirs ≠ mine → |mine - value| = |theirs - value| → number.toBits % 2 = 0)

/-- Of two numbers the one is nearer on whose side of the middle the value is. -/
theorem abs_sub_le_of_middle {mine theirs value : ℚ}
    (hbelow : theirs < mine → theirs + mine ≤ 2 * value)
    (habove : mine < theirs → 2 * value ≤ mine + theirs) :
    |mine - value| ≤ |theirs - value| := by
  rcases lt_trichotomy theirs mine with hlt | rfl | hlt
  · have hmiddle := hbelow hlt
    rw [abs_of_nonpos (show theirs - value ≤ 0 by linarith), abs_le]
    exact ⟨by linarith, by linarith⟩
  · exact le_refl _
  · have hmiddle := habove hlt
    rw [abs_of_nonneg (show 0 ≤ theirs - value by linarith), abs_le]
    exact ⟨by linarith, by linarith⟩

theorem middle_eq_of_abs_sub_eq {mine theirs value : ℚ} (hne : theirs ≠ mine)
    (hequal : |mine - value| = |theirs - value|) : mine + theirs = 2 * value := by
  rcases abs_eq_abs.1 hequal with hsame | hmirrored
  · exact absurd (sub_left_injective hsame).symm hne
  · linarith

theorem magnitude_nonneg (rank : Nat) : 0 ≤ magnitude rank := by
  unfold magnitude
  positivity

/-- The middles between the nearest rank and every number of the format, of which the negative
ones are further away than zero. -/
theorem middles_of_toRat? (num : Nat) {den : Nat} (hden : 0 < den) {other : Binary64} {theirs : ℚ}
    (hother : other.toRat? = some theirs) :
    let rank := nearestRank num den
    (theirs < magnitude rank → theirs + magnitude rank ≤ 2 * ((num : ℚ) / den) ∧
      (rank % 2 = 1 → theirs + magnitude rank < 2 * ((num : ℚ) / den))) ∧
    (magnitude rank < theirs → 2 * ((num : ℚ) / den) ≤ magnitude rank + theirs ∧
      (rank % 2 = 1 → 2 * ((num : ℚ) / den) < magnitude rank + theirs)) := by
  intro rank
  rcases other with _ | _ | ⟨negative, otherRank⟩
  · cases hother
  · cases hother
  cases negative with
  | false =>
    obtain rfl : magnitude otherRank = theirs := Option.some.inj hother
    refine ⟨fun hlt => ?_, fun hlt => ?_⟩
    · exact middle_below hden (magnitude_strictMono.lt_iff_lt.1 hlt)
    · exact middle_above hden (magnitude_strictMono.lt_iff_lt.1 hlt)
  | true =>
    obtain rfl : -magnitude otherRank = theirs := Option.some.inj hother
    have hrank := magnitude_nonneg rank
    have hotherRank := magnitude_nonneg otherRank
    refine ⟨fun _ => ?_, fun hlt => absurd hlt (by linarith)⟩
    rcases Nat.eq_zero_or_pos rank with hzero | hpos
    · have hquotient : (0 : ℚ) ≤ num / den := by positivity
      rw [hzero, magnitude_zero]
      exact ⟨by linarith, fun hodd => absurd hodd (by decide)⟩
    · obtain ⟨hle, hlt⟩ := middle_below hden hpos
      rw [magnitude_zero] at hle hlt
      exact ⟨by linarith, fun hodd => by linarith [hlt hodd]⟩

theorem toBits_positive (rank : Fin rankBound) : (finite false rank).toBits = rank := by
  simp [toBits]

/-- A quotient is rounded to the nearest number. -/
theorem roundsTo_nearestRank {num den : Nat} (hden : 0 < den)
    (hfinite : nearestRank num den < rankBound) :
    RoundsTo ((num : ℚ) / den) (.finite false ⟨nearestRank num den, hfinite⟩) := by
  refine ⟨magnitude (nearestRank num den), rfl, fun other theirs hother => ?_⟩
  obtain ⟨hbelow, habove⟩ := middles_of_toRat? num hden hother
  refine ⟨abs_sub_le_of_middle (fun hlt => (hbelow hlt).1) (fun hlt => (habove hlt).1), ?_⟩
  intro hne hequal
  have hmiddle := middle_eq_of_abs_sub_eq hne hequal
  rw [toBits_positive]
  -- On a middle the rank is not odd.
  by_contra hodd
  rw [Nat.mod_two_not_eq_zero] at hodd
  rcases lt_or_gt_of_ne hne with hlt | hlt
  · linarith [(hbelow hlt).2 hodd]
  · linarith [(habove hlt).2 hodd]

/-! ## Overflow -/

/-- The middle between the largest number and the power of two after it. -/
theorem magnitude_add_magnitude_rankBound :
    magnitude (rankBound - 1) + magnitude rankBound = 2 * (2 ^ 1024 - 2 ^ 970) := by
  have hlargest : units (rankBound - 1) = (2 ^ 53 - 1) * 2 ^ 2045 := by
    rw [show rankBound - 1 = 2045 * 2 ^ 52 + (2 ^ 53 - 1) by decide]
    exact units_eq (by decide) (.inr (by decide))
  have hnext : units rankBound = 2 ^ 53 * 2 ^ 2045 := by
    rw [show rankBound = 2045 * 2 ^ 52 + 2 ^ 53 by decide]
    exact units_eq (by decide) (.inr (by decide))
  have hscale (mantissa : ℚ) : mantissa * 2 ^ 2045 / 2 ^ 1074 = mantissa * (2 * 2 ^ 970) := by
    rw [show (2 : ℚ) ^ 2045 = 2 * 2 ^ 970 * 2 ^ 1074 by rw [← pow_succ', ← pow_add], ← mul_assoc,
      mul_div_cancel_right₀ _ (pow_ne_zero _ two_ne_zero)]
  have htop : (2 : ℚ) ^ 1024 = 2 ^ 54 * 2 ^ 970 := by
    rw [← pow_add]
  rw [magnitude, magnitude, hlargest, hnext, Nat.cast_mul, Nat.cast_mul, Nat.cast_pow _ 2045,
    Nat.cast_ofNat, hscale, hscale, htop]
  generalize (2 : ℚ) ^ 970 = unit
  norm_num
  ring

/-- The outcome is finite up to the middle between the largest number and the power of two after
it.  The largest rank is odd, so the middle itself is rounded up. -/
theorem nearestRank_lt_iff (num : Nat) {den : Nat} (hden : 0 < den) :
    nearestRank num den < rankBound ↔ (num : ℚ) / den < 2 ^ 1024 - 2 ^ 970 := by
  have hbound := magnitude_add_magnitude_rankBound
  generalize (2 : ℚ) ^ 1024 - 2 ^ 970 = limit at hbound ⊢
  constructor
  · intro hfinite
    obtain ⟨hle, hlt⟩ := middle_above hden (Nat.lt_succ_self (nearestRank num den))
    by_cases hlargest : nearestRank num den = rankBound - 1
    · have hodd := hlt (by rw [hlargest]; decide)
      rw [hlargest, show (rankBound - 1).succ = rankBound by decide, hbound] at hodd
      linarith
    · have hrank : magnitude (nearestRank num den) < magnitude (rankBound - 1) :=
        magnitude_strictMono (by omega)
      have hnext : magnitude (nearestRank num den).succ < magnitude rankBound :=
        magnitude_strictMono (by omega)
      linarith
  · intro hless
    by_contra hinfinite
    have hrankBound : rankBound ≤ nearestRank num den := Nat.not_lt.1 hinfinite
    have hpos : 0 < nearestRank num den := lt_of_lt_of_le (by decide) hrankBound
    have hle := (middle_below hden (Nat.sub_one_lt_of_lt hpos)).1
    have hrank : magnitude rankBound ≤ magnitude (nearestRank num den) :=
      magnitude_strictMono.monotone hrankBound
    have hpred : magnitude (rankBound - 1) ≤ magnitude (nearestRank num den - 1) :=
      magnitude_strictMono.monotone (Nat.sub_le_sub_right hrankBound 1)
    linarith

/-- A quotient below the middle after the largest number is rounded to the nearest number. -/
theorem exists_ofQuotient_eq {num den : Nat} (hden : 0 < den)
    (hless : (num : ℚ) / den < 2 ^ 1024 - 2 ^ 970) :
    ∃ rank, ofQuotient num den = .finite false rank ∧
      RoundsTo ((num : ℚ) / den) (.finite false rank) := by
  have hfinite := (nearestRank_lt_iff num hden).2 hless
  exact ⟨⟨nearestRank num den, hfinite⟩, dif_pos hfinite, roundsTo_nearestRank hden hfinite⟩

theorem ofQuotient_eq_infinite {num den : Nat} (hden : 0 < den)
    (hmore : ¬(num : ℚ) / den < 2 ^ 1024 - 2 ^ 970) : ofQuotient num den = .infinite false :=
  dif_neg (mt (nearestRank_lt_iff num hden).1 hmore)

end Frontend.Binary64
