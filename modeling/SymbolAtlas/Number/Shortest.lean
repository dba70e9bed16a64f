import SymbolAtlas.Number.Binary64

/-!
# Shortest decimal texts

The decimal text of a binary number: the fewest digits that read back as the same number, and of
the decimals with so few digits the one nearest to it. The decimals that read back fill an
interval around the value, whose ends belong to it if and only if the significand is even. On the
grid of decimals with a given number of digits only the two neighbours of the value need to be
tried: if any point of the grid lies in the interval, so does one of them.

* `Binary64.shortest` — the digits as a natural number, and the power of ten they are scaled by;
* `Binary64.render` — positional from `10 ^ -4` up to `10 ^ 16`, with an exponent outside.
-/

namespace SymbolAtlas.Binary64

/-- The reals that round to a value, as `low / den … high / den` around `value / den`. -/
structure Interval where
  low : Nat
  value : Nat
  high : Nat
  den : Nat
  closed : Bool
  deriving Repr

/-- The interval of a positive finite value. The step below a power of two is half the step
above it. -/
def interval (m : Nat) (e : Int) : Interval :=
  let below := if m = Nat.pow 2 52 && minExponent < e then 1 else 2
  let scale := if 2 ≤ e then Nat.pow 2 (e - 2).toNat else 1
  let den := if 2 ≤ e then 1 else Nat.pow 2 (2 - e).toNat
  { low := (4 * m - below) * scale, value := 4 * m * scale, high := (4 * m + 2) * scale,
    den := den, closed := m % 2 == 0 }

/-- Whether `digits · 10 ^ exponent` reads back. -/
def Interval.holds (i : Interval) (digits : Nat) (exponent : Int) : Bool :=
  let num := if 0 ≤ exponent then digits * Nat.pow 10 exponent.toNat * i.den else digits * i.den
  let unit := if 0 ≤ exponent then 1 else Nat.pow 10 (-exponent).toNat
  if i.closed then i.low * unit ≤ num && num ≤ i.high * unit
  else i.low * unit < num && num < i.high * unit

/-- The greatest `t` with `10 ^ t ≤ value`, found from an estimate that is off by one at most. -/
def Interval.magnitude (i : Interval) : Int :=
  let reaches (t : Int) : Bool :=
    if 0 ≤ t then i.den * Nat.pow 10 t.toNat ≤ i.value
    else i.den ≤ i.value * Nat.pow 10 (-t).toNat
  let t := (floorLog2 i.value i.den * 30103).fdiv 100000
  if reaches (t + 1) then t + 1 else if reaches t then t else t - 1

/-- The decimal of `count` digits that reads back and is nearest to the value, if there is one. A
tie goes to the even digit. -/
def Interval.onGrid? (i : Interval) (magnitude : Int) (count : Nat) : Option (Nat × Int) :=
  let k := magnitude - count + 1
  let num := if 0 ≤ k then i.value else i.value * Nat.pow 10 (-k).toNat
  let den := if 0 ≤ k then i.den * Nat.pow 10 k.toNat else i.den
  let d := num / den
  let r := num % den
  let up := den < 2 * r || (den == 2 * r && d % 2 == 1)
  let (first, second) := if up then (d + 1, d) else (d, d + 1)
  if i.holds first k then some (first, k)
  else if i.holds second k then some (second, k)
  else none

/-- The first grid with a decimal that reads back. Seventeen digits always suffice. -/
def Interval.shortest (i : Interval) : Nat × Int :=
  let t := i.magnitude
  ((List.range 17).findSome? fun n => i.onGrid? t (n + 1)).getD (0, 0)

/-- The shortest digits of a positive finite value, with no zero at the end, and the power of ten
they are scaled by. -/
def shortest (m : Nat) (e : Int) : Nat × Int :=
  let (d, k) := (interval m e).shortest
  strip 20 d k
where
  /-- The same decimal without zeros at the end of its digits. -/
  strip : Nat → Nat → Int → Nat × Int
    | 0, d, k => (d, k)
    | fuel + 1, d, k => if d != 0 && d % 10 == 0 then strip fuel (d / 10) (k + 1) else (d, k)

/-- The digits of a decimal with the point, or with an exponent where that form would hold more
than sixteen places before the point or more than four zeros behind it. -/
def layout (digits : List Char) (exponent : Int) : List Char :=
  let count : Int := digits.length
  let point := count + exponent
  if point ≤ -4 || 16 < point then
    let mantissa := match digits with
      | d :: rest@(_ :: _) => d :: '.' :: rest
      | ds => ds
    let power := point - 1
    let places := (toString power.natAbs).toList
    let padded := if places.length < 2 then '0' :: places else places
    mantissa ++ 'e' :: (if power < 0 then '-' else '+') :: padded
  else if point ≤ 0 then '0' :: '.' :: List.replicate (-point).toNat '0' ++ digits
  else if count ≤ point then digits ++ List.replicate (point - count).toNat '0' ++ ['.', '0']
  else digits.take point.toNat ++ '.' :: digits.drop point.toNat

/-- The text of a number: shortest digits, `inf`, `-inf` or `nan`. -/
def render : Binary64 → String
  | .nan => "nan"
  | .infinite negative => if negative then "-inf" else "inf"
  | .finite negative m e =>
    let body := if m = 0 then ['0', '.', '0']
      else
        let (d, k) := shortest m e
        layout (toString d).toList k
    String.ofList (if negative then '-' :: body else body)

end SymbolAtlas.Binary64
