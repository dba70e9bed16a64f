import SymbolAtlas.Failure
import SymbolAtlas.Number.Numeral

/-!
# Invariants

Conditions that the program relies on. Where one is broken, the failure carries the values that
were around, for whoever has to find out how.

* `Invariant.never` — a place that nothing should reach;
* `Invariant.requirePositive` — a value that must read as a number above zero;
* `Timeout` — such a value, used as a time to wait in seconds.
-/

namespace SymbolAtlas

namespace Invariant

/-- The failure of a place that nothing should reach. -/
def never (reason : String) (environment : Json.Object) : Failure :=
  .unreachable (if reason.isEmpty then "never() marker reached" else reason) environment

/-- Whether a value reads as a number above zero; nothing if it is an integer too large to
compare. Texts are read as numerals and truth values as `0` and `1`. -/
def isPositive? : Json → Option Bool
  | .bool b => some b
  | .int n => (Binary64.ofInt? n).map Binary64.isPositive
  | .float x => some x.isPositive
  | .str s => some ((s.toString?.bind Numeral.readBinary64?).elim false Binary64.isPositive)
  | _ => some false

/-- The value, if it reads as a number above zero. -/
def requirePositive (v : Json) (reason : String) (environment : Json.Object) :
    Except Fault Json :=
  match isPositive? v with
  | some true => .ok v
  | some false => .error (.failure (never reason (("value", v) :: environment)))
  | none => .error (.stray .tooLarge)

end Invariant

/-- A time to wait in seconds, in the form in which it was given. -/
structure Timeout where
  value : Json
  isPositive : Invariant.isPositive? value = some true

namespace Timeout

/-- The value as a time to wait, if it is a positive number. -/
def require (v : Json) (reason : String) : Except Fault Timeout :=
  if h : Invariant.isPositive? v = some true then .ok ⟨v, h⟩
  else
    match Invariant.requirePositive v reason [] with
    | .error e => .error e
    | .ok _ => .error (.stray .tooLarge)

/-- The time as messages show it. -/
def display (t : Timeout) : Text :=
  t.value.display

/-- The nanoseconds in a second. -/
def nanoseconds : Nat := 1000000000

/-- The first number of nanoseconds that a clock cannot count to. -/
def clockEnd : Nat := 9223372036854775808

/-- The first number of nanoseconds that is rounded to the end of the clock, or past it, where it
is computed from a floating-point number of seconds. -/
def roundedEnd : Nat := clockEnd - 512

/-- Whether a number of seconds is longer than can be waited. -/
def isEndless : Json → Bool
  | .int n => decide ((clockEnd : Int) ≤ n * nanoseconds)
  | .float (.infinite negative) => !negative
  | .float (.finite false m e) =>
    if 0 ≤ e then roundedEnd ≤ m * Nat.pow 2 e.toNat * nanoseconds
    else roundedEnd * Nat.pow 2 (-e).toNat ≤ m * nanoseconds
  | _ => false

/-- Whether a number can be waited for, or why not: what is not a number cannot, and there is a
longest time. -/
def canElapse (v : Json) : Except Stray Unit :=
  match v with
  | .float .nan => .error .nanTimeout
  | v => if isEndless v then .error .endlessTimeout else .ok ()

/-- Whether a value is a time at all, or why not: a text is none even if it reads as a number. -/
def isTime : Json → Except Stray Unit
  | .str _ | .arr _ | .obj _ => .error .unusableTimeout
  | _ => .ok ()

/-- Whether a value can be waited for, or why not. -/
def canWait (v : Json) : Except Stray Unit := do
  isTime v
  canElapse v

/-- Whether the time can be waited for, or why not. -/
def wait (t : Timeout) : Except Stray Unit :=
  canWait t.value

end Timeout

end SymbolAtlas
