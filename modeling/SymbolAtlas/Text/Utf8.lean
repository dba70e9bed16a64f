import SymbolAtlas.Text.CodePoint

/-!
# UTF-8

Bytes and characters. The reader walks the bytes one at a time and remembers the sequence it is
in, so a broken sequence costs exactly the bytes that could have begun a character: a decoder
that replaces puts one U+FFFD for each such maximal part, and a strict one refuses.

* `encode` — the bytes of a list of characters;
* `encode?` — the bytes of a text, which has none if a surrogate stands alone in it;
* `scan` — the characters of a list of bytes, with `none` for each maximal broken part;
* `decode` — strict: nothing unless every part is a character;
* `decodeLossy` — each broken part becomes U+FFFD.
-/

namespace SymbolAtlas.Text.Utf8

/-- The character that stands for bytes that are none. -/
def replacement : Char := '\uFFFD'

/-- The bytes of one character. -/
def encodeChar (c : Char) : List UInt8 :=
  let n := c.toNat
  if n < 0x80 then [n.toUInt8]
  else if n < 0x800 then [(0xC0 + n / 64).toUInt8, (0x80 + n % 64).toUInt8]
  else if n < 0x10000 then
    [(0xE0 + n / 4096).toUInt8, (0x80 + n / 64 % 64).toUInt8, (0x80 + n % 64).toUInt8]
  else
    [(0xF0 + n / 262144).toUInt8, (0x80 + n / 4096 % 64).toUInt8, (0x80 + n / 64 % 64).toUInt8,
      (0x80 + n % 64).toUInt8]

/-- The bytes of a list of characters. -/
def encode (cs : List Char) : List UInt8 :=
  cs.flatMap encodeChar

/-- The bytes of a text, if it has any. -/
def encode? (t : Text) : Option (List UInt8) :=
  t.toChars?.map encode

/-- A sequence under way: the bits read so far, how many continuation bytes it still lacks, and
the range of the next one. -/
structure Partial where
  bits : Nat
  lacking : Nat
  low : Nat := 0x80
  high : Nat := 0xBF
  deriving DecidableEq, Repr

/-- What a first byte opens, if it opens a sequence of several bytes. The ranges leave out
overlong forms, surrogates and everything above U+10FFFF. -/
def lead? (b : Nat) : Option Partial :=
  if 0xC2 ≤ b && b ≤ 0xDF then some { bits := b - 0xC0, lacking := 1 }
  else if b == 0xE0 then some { bits := 0, lacking := 2, low := 0xA0 }
  else if b == 0xED then some { bits := 13, lacking := 2, high := 0x9F }
  else if 0xE1 ≤ b && b ≤ 0xEF then some { bits := b - 0xE0, lacking := 2 }
  else if b == 0xF0 then some { bits := 0, lacking := 3, low := 0x90 }
  else if 0xF1 ≤ b && b ≤ 0xF3 then some { bits := b - 0xF0, lacking := 3 }
  else if b == 0xF4 then some { bits := 4, lacking := 3, high := 0x8F }
  else none

/-- A byte read between characters: the parts it completes, and the sequence it opens. -/
def start (b : Nat) : List (Option Char) × Option Partial :=
  if b < 0x80 then ([some (Char.ofNat b)], none)
  else match lead? b with
    | some p => ([], some p)
    | none => ([none], none)

/-- A byte read inside a sequence. One that cannot continue it breaks it off and is read as a
first byte. -/
def continueWith (p : Partial) (b : Nat) : List (Option Char) × Option Partial :=
  if p.low ≤ b && b ≤ p.high then
    let bits := p.bits * 64 + b % 64
    if p.lacking ≤ 1 then ([some (Char.ofNat bits)], none)
    else ([], some { bits := bits, lacking := p.lacking - 1 })
  else
    let (parts, next) := start b
    (none :: parts, next)

/-- The characters of the bytes, `none` for each maximal part that is not one. -/
def scanFrom : Option Partial → List UInt8 → List (Option Char)
  | none, [] => []
  | some _, [] => [none]
  | none, b :: bs =>
    let (parts, next) := start b.toNat
    parts ++ scanFrom next bs
  | some p, b :: bs =>
    let (parts, next) := continueWith p b.toNat
    parts ++ scanFrom next bs

/-- The characters of a whole list of bytes. -/
def scan (bs : List UInt8) : List (Option Char) :=
  scanFrom none bs

/-- The characters of the bytes, if all of them are UTF-8. -/
def decode (bs : List UInt8) : Option (List Char) :=
  (scan bs).mapM id

/-- The characters of the bytes, U+FFFD standing for each broken part. -/
def decodeLossy (bs : List UInt8) : List Char :=
  (scan bs).map (·.getD replacement)

end SymbolAtlas.Text.Utf8
