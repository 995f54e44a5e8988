import Frontend.Binary64.Basic

/-!
# The shortest decimal of a binary64 number

The decimal with the fewest digits among those that round to the number, and of these the
nearest to it.

Everything is scaled by `10 ^ 1074`, which makes every number of the format a natural
number: a unit of `2 ^ (-1074)` becomes `5 ^ 1074`.  Decimals with their last digit at one
place are then the multiples of a power of ten, a grid.  The search goes from coarse grids
to fine ones and stops at the first that has a point which reads back.  If a grid has such a
point then one of the two points next to the number is one, so only these two are tried.
-/

namespace Frontend.Binary64

open scoped CorePower

/-- The power of ten that everything is scaled by. -/
def decimalScale : Nat := 1074

/-- The magnitude of the given rank times `10 ^ 1074`. -/
def scaledMagnitude (rank : Nat) : Nat :=
  units rank * 5 ^ decimalScale

/-- Whether `point / 10 ^ 1074` rounds to the magnitude of the given positive rank: it
does between the middles towards the two neighbours, which go to the even rank. -/
def readsBack (rank point : Nat) : Bool :=
  let low := scaledMagnitude (rank - 1) + scaledMagnitude rank
  let high := scaledMagnitude rank + scaledMagnitude (rank + 1)
  if rank % 2 = 0 then low ≤ 2 * point && 2 * point ≤ high
  else low < 2 * point && 2 * point < high

/-- The multiple of `10 ^ place` that reads back, as the number of times, if there is one.
Of two the nearer is taken, and the upper of two that are equally near. -/
def gridPoint? (rank place : Nat) : Option Nat :=
  let value := scaledMagnitude rank
  let grid := 10 ^ place
  let below := value / grid
  match readsBack rank (below * grid), readsBack rank ((below + 1) * grid) with
  | true, true =>
    if value - below * grid < (below + 1) * grid - value then some below else some (below + 1)
  | true, false => some below
  | false, true => some (below + 1)
  | false, false => none

/-- The first of the grids `10 ^ place`, `10 ^ (place - 1)`, … that has a point which reads
back, with that point: digits and place.  On the finest grid the number itself is one. -/
def shortestFrom (rank : Nat) : Nat → Nat × Nat
  | 0 => (scaledMagnitude rank, 0)
  | place + 1 =>
    match gridPoint? rank (place + 1) with
    | some digits => (digits, place + 1)
    | none => shortestFrom rank place

/-- The digits of the shortest decimal of the magnitude of a positive rank, and the place
of the last one, in tens scaled by `10 ^ 1074`.  Since `2 ^ 13 < 10 ^ 4`, the search starts on a
grid that is wider than the number is large, and no coarser one has a point that reads back. -/
def shortest (rank : Nat) : Nat × Nat :=
  shortestFrom rank (4 * ((scaledMagnitude rank).log2 / 13 + 1))

end Frontend.Binary64
