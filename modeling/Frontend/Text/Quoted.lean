import Frontend.Text.ExtendingMark
import Frontend.Text.Unprintable

/-!
# Quoted text

How messages show a piece of source text: between double quotes, with every
character that would not show as itself written as an escape.
-/

namespace Frontend.Text

/-! ## Ignorable characters -/

/-- The runs of code points with the property Default_Ignorable_Code_Point of Unicode 17, which
leave no trace where they are shown.  Among them are four letters, the fillers of Hangul. -/
def ignorableRanges : CharRanges :=
  #[(0xad, 0xad), (0x34f, 0x34f), (0x61c, 0x61c), (0x115f, 0x1160), (0x17b4, 0x17b5),
   (0x180b, 0x180f), (0x200b, 0x200f), (0x202a, 0x202e), (0x2060, 0x206f), (0x3164, 0x3164),
   (0xfe00, 0xfe0f), (0xfeff, 0xfeff), (0xffa0, 0xffa0), (0xfff0, 0xfff8), (0x1bca0, 0x1bca3),
   (0x1d173, 0x1d17a), (0xe0000, 0xe0fff)]

/-- Whether `c` leaves no trace where it is shown. -/
def isIgnorable (c : Char) : Bool :=
  ignorableRanges.contains c

/-! ## Quoting -/

/-- Whether `c` stands for itself between quotes.  A mark that attaches to the
character before it would change how that one looks, so it does not. -/
def showsAsItself (c : Char) : Bool :=
  !isUnprintable c && !isIgnorable c && !isExtendingMark c

/-- One character as it stands between quotes. -/
def quoteChar (c : Char) : String :=
  match c with
  | '\x00' => "\\0"
  | '\t' => "\\t"
  | '\r' => "\\r"
  | '\n' => "\\n"
  | '"' => "\\\""
  | '\\' => "\\\\"
  | c =>
    if showsAsItself c then c.toString
    else "\\u\x7b" ++ String.ofList (Nat.toDigits 16 c.toNat) ++ "\x7d"

/-- The text between double quotes, each character as `quoteChar` writes it. -/
def quoted (text : String) : String :=
  "\"" ++ String.join (text.toList.map quoteChar) ++ "\""

end Frontend.Text
