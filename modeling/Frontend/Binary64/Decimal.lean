import Frontend.Binary64.Basic
import Frontend.Binary64.Shortest
import Frontend.Text.Basic

/-!
# Decimal text of binary64 numbers

Literals are read to the nearest number.  Numbers are written with the fewest digits that
read back, always in plain positional notation.
-/

namespace Frontend.Binary64

open scoped CorePower

/-- The number that a literal denotes: digits, one point and digits, with at least one
digit on one of its sides. -/
def ofText? (text : String) : Option Binary64 :=
  let whole := text.toList.takeWhile Char.isDigit
  match text.toList.dropWhile Char.isDigit with
  | '.' :: fraction =>
    if fraction.all Char.isDigit && !(whole ++ fraction).isEmpty then
      some (ofQuotient (Text.decimalValue (whole ++ fraction)) (10 ^ fraction.length))
    else none
  | _ => none

/-- The decimal `digits * 10 ^ place / 10 ^ 1074` in positional notation, with a point only
if there are digits after it. -/
def positional (digits place : Nat) : List Char :=
  if decimalScale ≤ place then
    Text.decimalDigits digits ++ List.replicate (place - decimalScale) '0'
  else
    let places := decimalScale - place
    Text.decimalDigits (digits / 10 ^ places) ++
      '.' :: Text.paddedDigits places (digits % 10 ^ places)

/-- The magnitude of the given rank in positional notation. -/
def magnitudeText (rank : Nat) : List Char :=
  if rank = 0 then ['0']
  else
    let (digits, place) := shortest rank
    positional digits place

/-- The text of a number.  A whole number has no point in it. -/
def text : Binary64 → String
  | .nan => "NaN"
  | .infinite negative => if negative then "-inf" else "inf"
  | .finite negative rank =>
    String.ofList (if negative then '-' :: magnitudeText rank else magnitudeText rank)

/-- The text of a number as a literal of the language: a whole number gets a point and a
zero, so that it reads back as a float. -/
def literal (number : Binary64) : String :=
  let text := number.text
  if number.isFinite && !text.toList.contains '.' then text ++ ".0" else text

end Frontend.Binary64
