import SymbolAtlas.Number.Binary64
import SymbolAtlas.Text.Classes

/-!
# Numerals

Numbers that arrive as text. A numeral may stand between blanks and have a sign; its digits may be
the decimal digits of any script, and a single underscore may stand between two of them.

* `digitRun` — the digits at the front of a text;
* `readInt?` — an integer in decimal notation, of at most `maxDigits` digits;
* `readBinary64?` — a decimal with an optional fraction and exponent, an infinity, or `nan`.
-/

namespace SymbolAtlas.Numeral

open Text

/-- The most digits that an integer is converted from. -/
def maxDigits : Nat := 4300

/-- The blanks that may surround a numeral: all but the four separators U+001C to U+001F. -/
def isMargin (c : Char) : Bool :=
  isBlank c && !(28 ≤ c.toNat && c.toNat ≤ 31)

/-- The text of a numeral without its margins. -/
def strip (s : String) : List Char :=
  dropLastWhile isMargin (s.toList.dropWhile isMargin)

/-- Whether the numeral has a minus, and what follows the sign. -/
def takeSign : List Char → Bool × List Char
  | '-' :: cs => (true, cs)
  | '+' :: cs => (false, cs)
  | cs => (false, cs)

/-- The rest of a run after its first digit, the digits being those that have a value. -/
def moreDigits (value? : Char → Option Nat) : List Char → List Nat × List Char
  | [] => ([], [])
  | '_' :: cs =>
    match moreDigits value? cs, cs.head?.bind value? with
    | (ds, rest), some _ => (ds, rest)
    | _, none => ([], '_' :: cs)
  | c :: cs =>
    match value? c with
    | some d => let (ds, rest) := moreDigits value? cs; (d :: ds, rest)
    | none => ([], c :: cs)

/-- The longest run at the front of digits that have a value, and what follows it. The run is
empty if the text does not begin with a digit. -/
def runOf (value? : Char → Option Nat) : List Char → List Nat × List Char
  | [] => ([], [])
  | c :: cs =>
    match value? c with
    | some d => let (ds, rest) := moreDigits value? cs; (d :: ds, rest)
    | none => ([], c :: cs)

/-- The longest run of decimal digits of any script at the front, and what follows it. -/
def digitRun (cs : List Char) : List Nat × List Char :=
  runOf digitValue? cs

/-- The integer that a text writes. -/
def readInt? (s : String) : Option Int :=
  let (negative, body) := takeSign (strip s)
  match digitRun body with
  | (ds, []) =>
    if ds.isEmpty || maxDigits < ds.length then none
    else some (if negative then -(ofDigits 10 ds : Int) else ofDigits 10 ds)
  | _ => none

/-- The exponent at the front of a text, if a complete one is there; a text without an exponent
has the exponent zero. -/
def takeExponent : List Char → Option (Int × List Char)
  | c :: cs =>
    if c = 'e' || c = 'E' then
      let (negative, body) := takeSign cs
      match digitRun body with
      | ([], _) => none
      | (ds, rest) => some (if negative then -(ofDigits 10 ds : Int) else ofDigits 10 ds, rest)
    else some (0, c :: cs)
  | [] => some (0, [])

/-- The names of the values that have no digits. -/
def named? (negative : Bool) (cs : List Char) : Option Binary64 :=
  let name := String.ofList (cs.map Char.toLower)
  if name == "inf" || name == "infinity" then some (.infinite negative)
  else if name == "nan" then some .nan
  else none

/-- The number nearest to what a text writes. -/
def readBinary64? (s : String) : Option Binary64 :=
  let (negative, body) := takeSign (strip s)
  let (whole, rest) := digitRun body
  let (fraction, rest) := match rest with
    | '.' :: cs => digitRun cs
    | cs => ([], cs)
  if whole.isEmpty && fraction.isEmpty then named? negative body
  else match takeExponent rest with
    | some (exponent, []) =>
      some (.ofDecimal negative (ofDigits 10 (whole ++ fraction)) (exponent - fraction.length))
    | _ => none

end SymbolAtlas.Numeral
