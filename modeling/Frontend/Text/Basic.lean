/-!
# Text

Classes of characters, and numbers as decimal digits.
-/

namespace Frontend.Text

/-! ## Character ranges -/

/-- Runs of code points, each with its first and its last member, in increasing
order.  The tables of Unicode properties are written this way. -/
abbrev CharRanges := Array (Nat × Nat)

/-- Whether `c` lies in one of the runs. -/
def CharRanges.contains (ranges : CharRanges) (c : Char) : Bool :=
  ranges.any fun (first, last) => first ≤ c.toNat && c.toNat ≤ last

/-! ## White space -/

/-- Whether `c` has the Unicode property White_Space: 25 characters, six of them
ASCII. -/
def isWhiteSpace (c : Char) : Bool :=
  let n := c.toNat
  (0x9 ≤ n && n ≤ 0xd) || n == 0x20 || n == 0x85 || n == 0xa0 || n == 0x1680 ||
    (0x2000 ≤ n && n ≤ 0x200a) || n == 0x2028 || n == 0x2029 || n == 0x202f ||
    n == 0x205f || n == 0x3000

/-- The text without the white space at its two ends. -/
def trim (text : String) : String :=
  let tail := text.toList.dropWhile isWhiteSpace
  String.ofList (tail.reverse.dropWhile isWhiteSpace).reverse

/-! ## Decimal digits -/

/-- The value of a string of decimal digits, most significant first; zero for no
digits. -/
def decimalValue (digits : List Char) : Nat :=
  digits.foldl (fun value digit => 10 * value + (digit.toNat - '0'.toNat)) 0

/-- The decimal digits of a number, most significant first, without leading zeros;
`0` has one digit. -/
def decimalDigits (value : Nat) : List Char :=
  Nat.toDigits 10 value

/-- The decimal digits of a number, with zeros in front up to the given width. -/
def paddedDigits (width value : Nat) : List Char :=
  let digits := decimalDigits value
  List.replicate (width - digits.length) '0' ++ digits

/-- The decimal text of an integer, with a minus sign in front if it is negative. -/
def integerText (value : Int) : String :=
  let digits := decimalDigits value.natAbs
  String.ofList (if value < 0 then '-' :: digits else digits)

end Frontend.Text
