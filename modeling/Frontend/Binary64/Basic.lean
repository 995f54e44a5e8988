/-!
# Binary floating point numbers of 64 bits

The values that float literals denote: the numbers of the IEEE 754 format binary64.

A finite number is a sign and a rank.  Ranks count the magnitudes of the format upwards
from zero, which is also the order of their bit patterns.  Every magnitude is a whole
multiple of the least positive one, `2 ^ (-1074)`; `Binary64.units` says which multiple.
All arithmetic on these numbers is then arithmetic on natural numbers.
-/

namespace Frontend

namespace CorePower

/-- Where this is opened, powers of natural numbers are those of the core library, also if a monoid
would give them.  A numeral in an exponent needs its type for that. -/
scoped instance (priority := 2000) natPow : Pow Nat Nat := instPowNat

end CorePower

open scoped CorePower

/-- A number of the format binary64.  All NaNs are one. -/
inductive Binary64 where
  | nan
  | infinite (negative : Bool)
  | finite (negative : Bool) (rank : Fin (2047 * 2 ^ (52 : Nat)))
  deriving DecidableEq

namespace Binary64

/-- How many finite magnitudes there are. -/
abbrev rankBound : Nat := 2047 * 2 ^ (52 : Nat)

/-- The magnitude of the given rank, in multiples of `2 ^ (-1074)`.  The first `2 ^ 52`
ranks are that many times the unit.  After them, the unit doubles every `2 ^ 52` ranks. -/
def units (rank : Nat) : Nat :=
  if rank < 2 ^ (52 : Nat) then rank
  else (2 ^ (52 : Nat) + rank % 2 ^ (52 : Nat)) * 2 ^ (rank / 2 ^ (52 : Nat) - 1)

/-- The number with the given bit pattern, of which the low 64 bits count. -/
def ofBits (bits : Nat) : Binary64 :=
  let negative := bits.testBit 63
  let rank := bits % 2 ^ (63 : Nat)
  if h : rank < rankBound then .finite negative ⟨rank, h⟩
  else if rank = rankBound then .infinite negative
  else .nan

/-- The bit pattern of a number; one of them for NaN. -/
def toBits : Binary64 → Nat
  | .nan => rankBound + 2 ^ (51 : Nat)
  | .infinite negative => rankBound + if negative then 2 ^ (63 : Nat) else 0
  | .finite negative rank => rank.val + if negative then 2 ^ (63 : Nat) else 0

/-- Whether the number is neither infinite nor NaN. -/
def isFinite : Binary64 → Bool
  | .finite .. => true
  | _ => false

/-- Equality of numbers: NaN differs from itself, and the two zeros are equal. -/
def equals : Binary64 → Binary64 → Bool
  | .infinite negative, .infinite negative' => negative == negative'
  | .finite negative rank, .finite negative' rank' =>
    rank == rank' && (negative == negative' || rank.val == 0)
  | _, _ => false

/-! ## Rounding

A non-negative quotient of natural numbers goes to the nearest number of the format, and half-way
between two of them to the one of even rank.
-/

/-- The natural number nearest to `num / den`, the even one of two that are equally
near. -/
def roundQuotient (num den : Nat) : Nat :=
  let quotient := num / den
  let remainder := num % den
  if 2 * remainder < den ∨ (2 * remainder = den ∧ quotient % 2 = 0) then quotient
  else quotient + 1

/-- The rank of the number nearest to `num / den`, as if there were no largest number.
With `53` significant bits, a quotient of more than `53` bits before the unit's point is
rounded to a multiple of `2 ^ excess` units. -/
def nearestRank (num den : Nat) : Nat :=
  let scaled := num * 2 ^ (1074 : Nat)
  let excess := (scaled / den).log2 - 52
  excess * 2 ^ (52 : Nat) + roundQuotient scaled (den * 2 ^ excess)

/-- The number nearest to `num / den`, infinite from half-way past the largest finite
number on. -/
def ofQuotient (num den : Nat) : Binary64 :=
  let rank := nearestRank num den
  if h : rank < rankBound then .finite false ⟨rank, h⟩ else .infinite false

end Binary64

end Frontend
