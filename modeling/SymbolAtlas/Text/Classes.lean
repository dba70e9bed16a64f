import SymbolAtlas.Text.CodePoint

/-!
# Blanks and digits

The white space that headers, numerals, signatures and settings are stripped of. The set is
wider than `Char.isWhitespace`: it holds the separators U+001C to U+001F, the next-line
character, the no-break space and the Unicode spaces, but neither the zero-width space nor the
byte order mark.

The characters that a numeral may be written with: the decimal digits of every script (Unicode
category Nd). They come in runs of ten that begin with a zero, so a table of the zeros is all
that is needed.

* `isBlank` — the set of blanks;
* `trim` — a text without the blanks at its two ends;
* `isBlankText` — a text of blanks only;
* `zeros` — the code points of the digit zero;
* `digitValue?` — the value of a decimal digit, nothing for other characters.
-/

namespace SymbolAtlas.Text

/-! ## Blanks -/

/-- White space, as far as stripping is concerned. -/
def isBlank (c : Char) : Bool :=
  let n := c.toNat
  (9 ≤ n && n ≤ 13) || (28 ≤ n && n ≤ 32) || n == 0x85 || n == 0xA0 || n == 0x1680 ||
    (0x2000 ≤ n && n ≤ 0x200A) || n == 0x2028 || n == 0x2029 || n == 0x202F || n == 0x205F ||
    n == 0x3000

/-- The elements left once those at the end that satisfy `p` are gone. -/
def dropLastWhile {α : Type} (p : α → Bool) (cs : List α) : List α :=
  (cs.reverse.dropWhile p).reverse

/-- The characters between the blanks at the two ends. -/
def trimChars (cs : List Char) : List Char :=
  dropLastWhile isBlank (cs.dropWhile isBlank)

/-- Whether a code point is a blank. -/
def isBlankPoint : CodePoint → Bool
  | .char c => isBlank c
  | .surrogate _ => false

/-- The text between the blanks at its two ends. -/
def trim (t : Text) : Text :=
  dropLastWhile isBlankPoint (t.dropWhile isBlankPoint)

/-- Nothing but blanks. -/
def isBlankText (t : Text) : Bool :=
  t.all isBlankPoint

/-! ## Digits -/

/-- The code points of the digit zero, in ascending order. -/
def zeros : List Nat := [
  0x30, 0x660, 0x6F0, 0x7C0, 0x966, 0x9E6, 0xA66, 0xAE6, 0xB66, 0xBE6, 0xC66, 0xCE6, 0xD66,
  0xDE6, 0xE50, 0xED0, 0xF20, 0x1040, 0x1090, 0x17E0, 0x1810, 0x1946, 0x19D0, 0x1A80, 0x1A90,
  0x1B50, 0x1BB0, 0x1C40, 0x1C50, 0xA620, 0xA8D0, 0xA900, 0xA9D0, 0xA9F0, 0xAA50, 0xABF0,
  0xFF10, 0x104A0, 0x10D30, 0x11066, 0x110F0, 0x11136, 0x111D0, 0x112F0, 0x11450, 0x114D0,
  0x11650, 0x116C0, 0x11730, 0x118E0, 0x11950, 0x11C50, 0x11D50, 0x11DA0, 0x16A60, 0x16AC0,
  0x16B50, 0x1D7CE, 0x1D7D8, 0x1D7E2, 0x1D7EC, 0x1D7F6, 0x1E140, 0x1E2F0, 0x1E950, 0x1FBF0]

/-- The value of a decimal digit of any script. -/
def digitValue? (c : Char) : Option Nat :=
  (zeros.find? fun z => z ≤ c.toNat && c.toNat < z + 10).map (c.toNat - ·)

/-- The value of an ASCII digit. -/
def asciiDigitValue? (c : Char) : Option Nat :=
  if '0' ≤ c && c ≤ '9' then some (c.toNat - 48) else none

/-- The value of a hexadecimal ASCII digit of either case. -/
def hexDigitValue? (c : Char) : Option Nat :=
  if '0' ≤ c && c ≤ '9' then some (c.toNat - 48)
  else if 'a' ≤ c && c ≤ 'f' then some (c.toNat - 87)
  else if 'A' ≤ c && c ≤ 'F' then some (c.toNat - 55)
  else none

/-- The ASCII digit of a value below sixteen, in lower case. -/
def hexDigit (n : Nat) : Char :=
  if n < 10 then Char.ofNat (48 + n) else Char.ofNat (87 + n)

/-- The `width` lowest hexadecimal digits of a number. -/
def hexDigits : Nat → Nat → List Char
  | 0, _ => []
  | width + 1, n => hexDigits width (n / 16) ++ [hexDigit (n % 16)]

/-- The number that the digits write in base `base`, most significant first. -/
def ofDigits (base : Nat) (ds : List Nat) : Nat :=
  ds.foldl (fun n d => n * base + d) 0

end SymbolAtlas.Text
