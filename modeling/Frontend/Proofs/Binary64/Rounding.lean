import Frontend.Binary64.Basic
import Frontend.Binary64.Shortest
import Mathlib.Tactic.Linarith
import Mathlib.Tactic.Ring

/-!
# The shortest decimal rounds to its number

The search for the shortest decimal asks `readsBack`, which compares a point of a grid
with the middles between a number and its neighbours.  Reading rounds a quotient to a
number of `53` bits.  `nearestRank_of_readsBack` says that the two agree, and
`nearestRank_shortest` that the search always ends at a decimal which is read as the
number it was made from.

- `units_eq`, `exists_mantissa`: a rank as an exponent and a mantissa
- `IsNearest`: rounding to the nearest whole number as inequalities
- `nearestRank_eq`: the same for rounding to the nearest rank
- `readsBack_shortestFrom`: the search
-/

namespace Frontend.Binary64

/-! ## Ranks as exponent and mantissa -/

/-- The mantissa `2 ^ 53` is allowed: it is the same magnitude as `2 ^ 52` with the next
exponent, and also the same rank. -/
theorem units_eq {exponent mantissa : Nat} (hmantissa : mantissa ≤ 2 ^ 53)
    (hnormal : exponent = 0 ∨ 2 ^ 52 ≤ mantissa) :
    units (exponent * 2 ^ 52 + mantissa) = mantissa * 2 ^ exponent := by
  unfold units
  by_cases hsmall : mantissa < 2 ^ 52
  · obtain rfl : exponent = 0 := by omega
    rw [if_pos (by omega)]
    simp
  rw [if_neg (by omega)]
  by_cases htop : mantissa = 2 ^ 53
  · have hdiv : (exponent * 2 ^ 52 + mantissa) / 2 ^ 52 - 1 = exponent + 1 := by omega
    have hmod : (exponent * 2 ^ 52 + mantissa) % 2 ^ 52 = 0 := by omega
    rw [hdiv, hmod, htop, pow_succ]
    ring
  · have hdiv : (exponent * 2 ^ 52 + mantissa) / 2 ^ 52 - 1 = exponent := by omega
    have hmod : 2 ^ 52 + (exponent * 2 ^ 52 + mantissa) % 2 ^ 52 = mantissa := by omega
    rw [hdiv, hmod]

theorem exists_mantissa (rank : Nat) : ∃ exponent mantissa,
    rank = exponent * 2 ^ 52 + mantissa ∧ mantissa < 2 ^ 53 ∧
      (exponent = 0 ∨ 2 ^ 52 ≤ mantissa) := by
  by_cases hsmall : rank < 2 ^ 52
  · exact ⟨0, rank, by omega, by omega, .inl rfl⟩
  · exact ⟨rank / 2 ^ 52 - 1, 2 ^ 52 + rank % 2 ^ 52, by omega, by omega, .inr (by omega)⟩

theorem units_lt_units_succ (rank : Nat) : units rank < units (rank + 1) := by
  obtain ⟨exponent, mantissa, rfl, hmantissa, hnormal⟩ := exists_mantissa rank
  rw [units_eq (by omega) hnormal, Nat.add_assoc, units_eq (by omega) (by omega), Nat.add_mul]
  have hpos : 0 < 2 ^ exponent := Nat.two_pow_pos exponent
  omega

/-! ## Rounding to a whole number -/

/-- The whole number is nearest to the quotient, and the even one of two that are equally
near. -/
structure IsNearest (num den whole : Nat) : Prop where
  low : 2 * (whole * den) ≤ 2 * num + den
  high : 2 * num ≤ 2 * (whole * den) + den
  odd : whole % 2 = 1 → 2 * (whole * den) < 2 * num + den ∧ 2 * num < 2 * (whole * den) + den

theorem IsNearest.roundQuotient_eq {num den whole : Nat} (hden : 0 < den)
    (hnearest : IsNearest num den whole) : roundQuotient num den = whole := by
  obtain ⟨hlow, hhigh, hodd⟩ := hnearest
  have hnum : num = num / den * den + num % den := (Nat.div_add_mod' num den).symm
  have hmod : num % den < den := Nat.mod_lt num hden
  have hle : num / den ≤ whole := by
    apply Nat.le_of_lt_succ
    apply Nat.lt_of_mul_lt_mul_right (a := den)
    rw [Nat.succ_mul]
    omega
  have hge : whole ≤ num / den + 1 := by
    apply Nat.le_of_lt_succ
    apply Nat.lt_of_mul_lt_mul_right (a := den)
    rw [Nat.succ_mul, Nat.succ_mul]
    omega
  unfold roundQuotient
  obtain hwhole | hwhole : whole = num / den ∨ whole = num / den + 1 := by omega
  · subst hwhole
    exact if_pos (by omega)
  · rw [hwhole, Nat.add_mul, Nat.one_mul] at hlow hodd
    rw [if_neg (by omega), hwhole]

theorem roundQuotient_mul_right {num den factor : Nat} (hfactor : 0 < factor) :
    roundQuotient (num * factor) (den * factor) = roundQuotient num den := by
  unfold roundQuotient
  have hlt : 2 * (num % den * factor) < den * factor ↔ 2 * (num % den) < den := by
    rw [← Nat.mul_assoc]
    exact Nat.mul_lt_mul_right hfactor
  have heq : 2 * (num % den * factor) = den * factor ↔ 2 * (num % den) = den := by
    rw [← Nat.mul_assoc]
    exact Nat.mul_left_inj hfactor.ne'
  simp only [Nat.mul_div_mul_right _ _ hfactor, Nat.mul_mod_mul_right, hlt, heq]

/-! ## Rounding to a rank -/

theorem nearestRank_mul_right {num den factor : Nat} (hfactor : 0 < factor) :
    nearestRank (num * factor) (den * factor) = nearestRank num den := by
  unfold nearestRank
  dsimp only
  rw [Nat.mul_right_comm num, Nat.mul_div_mul_right _ _ hfactor]
  simp only [Nat.mul_right_comm den factor, roundQuotient_mul_right hfactor]

/-- The bits of a number beyond the `53` that a mantissa has. -/
theorem log2_sub_eq {exponent whole : Nat} (hnormal : exponent = 0 ∨ 2 ^ (52 + exponent) ≤ whole)
    (hbound : whole < 2 ^ (53 + exponent)) : whole.log2 - 52 = exponent := by
  by_cases hzero : whole = 0
  · subst hzero
    rcases hnormal with rfl | hnormal
    · rfl
    · exact absurd hnormal (by simp)
  have hhigh : whole.log2 < 53 + exponent := (Nat.log2_lt hzero).2 hbound
  rcases hnormal with rfl | hnormal
  · omega
  · have hlow : 52 + exponent ≤ whole.log2 := (Nat.le_log2 hzero).2 hnormal
    omega

/-- The width between two neighbours with the given exponent, times `10 ^ 1074`. -/
def width (exponent : Nat) : Nat :=
  2 ^ exponent * 5 ^ decimalScale

theorem width_pos (exponent : Nat) : 0 < width exponent :=
  Nat.mul_pos (Nat.two_pow_pos exponent) (Nat.pow_pos (by decide))

theorem width_succ (exponent : Nat) : width (exponent + 1) = 2 * width exponent := by
  simp only [width, pow_succ]
  ring

theorem scaledMagnitude_eq {exponent mantissa : Nat} (hmantissa : mantissa ≤ 2 ^ 53)
    (hnormal : exponent = 0 ∨ 2 ^ 52 ≤ mantissa) :
    scaledMagnitude (exponent * 2 ^ 52 + mantissa) = mantissa * width exponent := by
  rw [scaledMagnitude, units_eq hmantissa hnormal, Nat.mul_assoc, width]

/-- A scaled point is rounded to the mantissa that is nearest at the exponent where the point
has `53` bits before the unit's point. -/
theorem nearestRank_eq {exponent mantissa point : Nat}
    (hnormal : exponent = 0 ∨ 2 ^ 52 * width exponent ≤ point)
    (hbound : point < 2 ^ 53 * width exponent)
    (hnearest : IsNearest point (width exponent) mantissa) :
    nearestRank point (10 ^ decimalScale) = exponent * 2 ^ 52 + mantissa := by
  have hfive : 0 < 5 ^ decimalScale := Nat.pow_pos (by decide)
  have htwo : 0 < 2 ^ decimalScale := Nat.two_pow_pos decimalScale
  have hten : (10 : Nat) ^ decimalScale = 5 ^ decimalScale * 2 ^ decimalScale := by
    rw [← Nat.mul_pow]
  have hwidth (bits : Nat) :
      2 ^ bits * width exponent = 2 ^ (bits + exponent) * 5 ^ decimalScale := by
    rw [width, pow_add, Nat.mul_assoc]
  have hexcess : (point / 5 ^ decimalScale).log2 - 52 = exponent := by
    rw [hwidth] at hnormal hbound
    apply log2_sub_eq
    · exact hnormal.imp id (Nat.le_div_iff_mul_le hfive).2
    · exact (Nat.div_lt_iff_lt_mul hfive).2 hbound
  unfold nearestRank
  dsimp only
  rw [show 1074 = decimalScale from rfl, hten, Nat.mul_div_mul_right _ _ htwo]
  simp only [hexcess, Nat.mul_right_comm _ (2 ^ decimalScale), roundQuotient_mul_right htwo]
  rw [Nat.mul_comm (5 ^ decimalScale)]
  exact congrArg _ (hnearest.roundQuotient_eq (width_pos exponent))

/-! ## The search -/

theorem bounds_of_readsBack {rank point : Nat} (hreads : readsBack rank point = true) :
    scaledMagnitude (rank - 1) + scaledMagnitude rank ≤ 2 * point ∧
    2 * point ≤ scaledMagnitude rank + scaledMagnitude (rank + 1) ∧
    (rank % 2 = 1 → scaledMagnitude (rank - 1) + scaledMagnitude rank < 2 * point ∧
      2 * point < scaledMagnitude rank + scaledMagnitude (rank + 1)) := by
  unfold readsBack at hreads
  dsimp only at hreads
  split at hreads <;> simp only [Bool.and_eq_true, decide_eq_true_eq] at hreads <;> omega

/-- The neighbour below, where it has the same exponent. -/
theorem scaledMagnitude_pred (exponent : Nat) {mantissa : Nat} (hmantissa : mantissa < 2 ^ 53)
    (hnormal : exponent = 0 ∧ 0 < mantissa ∨ 2 ^ 52 < mantissa) :
    scaledMagnitude (exponent * 2 ^ 52 + mantissa - 1) + width exponent =
      mantissa * width exponent := by
  obtain ⟨less, rfl⟩ : ∃ less, mantissa = less + 1 := ⟨mantissa - 1, by omega⟩
  rw [Nat.add_sub_assoc (by omega), Nat.add_sub_cancel,
    scaledMagnitude_eq (by omega) (by omega), Nat.succ_mul]

/-- A point that reads back and has as many bits as its number. -/
theorem nearestRank_of_readsBack_normal {exponent mantissa point : Nat}
    (hmantissa : mantissa < 2 ^ 53) (hpos : 0 < exponent * 2 ^ 52 + mantissa)
    (hnormal : exponent = 0 ∨ 2 ^ 52 ≤ mantissa ∧ 2 ^ 52 * width exponent ≤ point)
    (hreads : readsBack (exponent * 2 ^ 52 + mantissa) point = true) :
    nearestRank point (10 ^ decimalScale) = exponent * 2 ^ 52 + mantissa := by
  obtain ⟨hlow, hhigh, hodd⟩ := bounds_of_readsBack hreads
  have hwidth := width_pos exponent
  have hthis : scaledMagnitude (exponent * 2 ^ 52 + mantissa) = mantissa * width exponent :=
    scaledMagnitude_eq (by omega) (by omega)
  have hnext : scaledMagnitude (exponent * 2 ^ 52 + mantissa + 1) =
      mantissa * width exponent + width exponent := by
    rw [Nat.add_assoc, scaledMagnitude_eq (by omega) (by omega), Nat.succ_mul]
  rw [hthis, hnext] at hhigh hodd
  rw [hthis] at hlow
  have htop : (mantissa + 1) * width exponent ≤ 2 ^ 53 * width exponent :=
    Nat.mul_le_mul_right _ hmantissa
  rw [Nat.succ_mul] at htop
  refine nearestRank_eq (hnormal.imp id And.right) (by omega) ?_
  by_cases hedge : mantissa = 2 ^ 52 ∧ exponent ≠ 0
  · -- the point is at or above the number, so only the middle above it matters
    obtain ⟨rfl, hexponent⟩ := hedge
    exact ⟨by omega, by omega, by omega⟩
  · have hprev := scaledMagnitude_pred exponent hmantissa (by omega)
    exact ⟨by omega, by omega, by omega⟩

/-- A point below a power of two that reads back as that power.  The point has one bit less,
and at its exponent the power of two is the mantissa `2 ^ 53`. -/
theorem nearestRank_of_readsBack_below {exponent point : Nat}
    (hpoint : point < 2 ^ 53 * width exponent)
    (hreads : readsBack (exponent * 2 ^ 52 + 2 ^ 53) point = true) :
    nearestRank point (10 ^ decimalScale) = exponent * 2 ^ 52 + 2 ^ 53 := by
  obtain ⟨hlow, -, -⟩ := bounds_of_readsBack hreads
  have hwidth := width_pos exponent
  rw [Nat.add_sub_assoc (by omega), scaledMagnitude_eq (by omega) (by omega),
    scaledMagnitude_eq (by omega) (by omega)] at hlow
  exact nearestRank_eq (.inr (by omega)) hpoint ⟨by omega, by omega, by omega⟩

/-- Every point that reads back is rounded to the rank. -/
theorem nearestRank_of_readsBack {rank point : Nat} (hrank : 0 < rank)
    (hreads : readsBack rank point = true) : nearestRank point (10 ^ decimalScale) = rank := by
  obtain ⟨exponent, mantissa, rfl, hmantissa, hnormal⟩ := exists_mantissa rank
  by_cases hbits : exponent = 0 ∨ 2 ^ 52 * width exponent ≤ point
  · exact nearestRank_of_readsBack_normal hmantissa hrank (by omega) hreads
  obtain ⟨less, rfl⟩ : ∃ less, exponent = less + 1 := ⟨exponent - 1, by omega⟩
  have hmantissa_eq : mantissa = 2 ^ 52 := by
    by_contra hne
    obtain ⟨hlow, -, -⟩ := bounds_of_readsBack hreads
    have hprev := scaledMagnitude_pred (less + 1) hmantissa (by omega)
    rw [scaledMagnitude_eq (by omega) hnormal] at hlow
    have hmore : (2 ^ 52 + 1) * width (less + 1) ≤ mantissa * width (less + 1) :=
      Nat.mul_le_mul_right _ (by omega)
    omega
  have hrank_eq : (less + 1) * 2 ^ 52 + mantissa = less * 2 ^ 52 + 2 ^ 53 := by omega
  rw [hrank_eq] at hreads ⊢
  rw [width_succ] at hbits
  exact nearestRank_of_readsBack_below (by omega) hreads

/-- A number reads back as itself. -/
theorem readsBack_scaledMagnitude {rank : Nat} (hrank : 0 < rank) :
    readsBack rank (scaledMagnitude rank) = true := by
  have hfive : 0 < 5 ^ decimalScale := Nat.pow_pos (by decide)
  have hnext : scaledMagnitude rank < scaledMagnitude (rank + 1) :=
    Nat.mul_lt_mul_of_pos_right (units_lt_units_succ rank) hfive
  have hprev : scaledMagnitude (rank - 1) < scaledMagnitude rank := by
    have hlt := units_lt_units_succ (rank - 1)
    rw [Nat.sub_add_cancel hrank] at hlt
    exact Nat.mul_lt_mul_of_pos_right hlt hfive
  unfold readsBack
  dsimp only
  split <;> simp only [Bool.and_eq_true, decide_eq_true_eq] <;> omega

theorem readsBack_of_gridPoint? {rank place digits : Nat}
    (hpoint : gridPoint? rank place = some digits) :
    readsBack rank (digits * 10 ^ place) = true := by
  unfold gridPoint? at hpoint
  dsimp only at hpoint
  split at hpoint
  · rename_i hbelow habove
    split at hpoint
    · cases hpoint
      exact hbelow
    · cases hpoint
      exact habove
  · rename_i hbelow _
    cases hpoint
    exact hbelow
  · rename_i _ habove
    cases hpoint
    exact habove
  · cases hpoint

theorem readsBack_shortestFrom {rank : Nat} (hrank : 0 < rank) (place : Nat) :
    readsBack rank ((shortestFrom rank place).1 * 10 ^ (shortestFrom rank place).2) = true := by
  induction place with
  | zero =>
    rw [shortestFrom, pow_zero, Nat.mul_one]
    exact readsBack_scaledMagnitude hrank
  | succ place ih =>
    unfold shortestFrom
    split
    · exact readsBack_of_gridPoint? ‹_›
    · exact ih

/-- The shortest decimal of a number is rounded to the number. -/
theorem nearestRank_shortest {rank : Nat} (hrank : 0 < rank) :
    nearestRank ((shortest rank).1 * 10 ^ (shortest rank).2) (10 ^ decimalScale) = rank :=
  nearestRank_of_readsBack hrank (readsBack_shortestFrom hrank _)

end Frontend.Binary64
