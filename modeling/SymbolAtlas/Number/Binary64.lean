/-!
# Binary floating-point numbers

The numbers of the IEEE 754 format of 64 bits, as exact data: `± significand · 2 ^ exponent`, the
two infinities, and one value that is no number. Arithmetic on them is not needed; what is needed
is to round an exact decimal to the nearest of them, to compare with zero, and to cut off the
fraction, and all three are done in the natural numbers.

A finite value is kept in the form that the format stores: a significand below `2 ^ 53`, an
exponent from `-1074` to `971`, and a significand of at least `2 ^ 52` unless the exponent is the
least one. `Binary64.ofRatio` and what is built on it return no other form.

* `Binary64.ofRatio` — the nearest value to a quotient of natural numbers, a tie going to the
  even significand;
* `Binary64.ofDecimal` — the nearest value to `digits · 10 ^ exponent`;
* `Binary64.ofInt?` — the nearest value to an integer, unless that is an infinity;
* `Binary64.truncate?` — the integer part.
-/

namespace SymbolAtlas

/-- A number of the 64-bit binary format. -/
inductive Binary64
  /-- The value that is no number. -/
  | nan
  /-- An infinity. -/
  | infinite (negative : Bool)
  /-- `significand · 2 ^ exponent`, with its sign; zero has a sign too. -/
  | finite (negative : Bool) (significand : Nat) (exponent : Int)
  deriving DecidableEq, Repr

namespace Binary64

/-- The least exponent of a finite value. -/
def minExponent : Int := -1074

/-- The greatest exponent of a finite value. -/
def maxExponent : Int := 971

/-- Zero with a sign. -/
def zero (negative : Bool) : Binary64 :=
  .finite negative 0 minExponent

/-- Half-even rounding of `num / den`. -/
def roundQuotient (num den : Nat) : Nat :=
  let q := num / den
  let r := num % den
  if den < 2 * r || (den == 2 * r && q % 2 == 1) then q + 1 else q

/-- The greatest `k` with `2 ^ k ≤ num / den`, for positive `num` and `den`. -/
def floorLog2 (num den : Nat) : Int :=
  let k : Int := (num.log2 : Int) - (den.log2 : Int)
  let reaches :=
    if 0 ≤ k then den * Nat.pow 2 k.toNat ≤ num else den ≤ num * Nat.pow 2 (-k).toNat
  if reaches then k else k - 1

/-- The value nearest to `num / den`, where `den` is positive. -/
def ofRatio (negative : Bool) (num den : Nat) : Binary64 :=
  if num = 0 then zero negative
  else
    let e := max minExponent (floorLog2 num den - 52)
    let m := if 0 ≤ e then roundQuotient num (den * Nat.pow 2 e.toNat)
      else roundQuotient (num * Nat.pow 2 (-e).toNat) den
    let (m, e) := if m = Nat.pow 2 53 then (Nat.pow 2 52, e + 1) else (m, e)
    if maxExponent < e then .infinite negative else .finite negative m e

/-- The value nearest to `digits · 10 ^ exponent`. Decimals far outside the range are answered
without computing the power. -/
def ofDecimal (negative : Bool) (digits : Nat) (exponent : Int) : Binary64 :=
  if digits = 0 then zero negative
  else if 310 < exponent then .infinite negative
  else if exponent + (digits.log2 : Int) < -1100 then zero negative
  else if 0 ≤ exponent then ofRatio negative (digits * Nat.pow 10 exponent.toNat) 1
  else ofRatio negative digits (Nat.pow 10 (-exponent).toNat)

/-- The value nearest to an integer, unless the integer is too large for a finite one. -/
def ofInt? (n : Int) : Option Binary64 :=
  match ofRatio (n < 0) n.natAbs 1 with
  | .infinite _ => none
  | x => some x

/-- Whether the value is greater than zero. -/
def isPositive : Binary64 → Bool
  | .nan => false
  | .infinite negative => !negative
  | .finite negative m _ => !negative && m != 0

/-- Whether the value is less than zero or equal to it. -/
def isNonpositive : Binary64 → Bool
  | .nan => false
  | .infinite negative => negative
  | .finite negative m _ => negative || m == 0

/-- Whether the value is a zero of either sign. -/
def isZero : Binary64 → Bool
  | .finite _ m _ => m == 0
  | _ => false

/-- The integer left when the fraction is cut off, for finite values. -/
def truncate? : Binary64 → Option Int
  | .finite negative m e =>
    let n : Nat := if 0 ≤ e then m * Nat.pow 2 e.toNat else m / Nat.pow 2 (-e).toNat
    some (if negative then -(n : Int) else n)
  | _ => none

/-- The integer that the value is, if it is one. -/
def toInt? (x : Binary64) : Option Int :=
  match x with
  | .finite _ m e =>
    if 0 ≤ e || m % Nat.pow 2 (-e).toNat == 0 then x.truncate? else none
  | _ => none

end Binary64

end SymbolAtlas
