import SymbolAtlas.Text.Pieces

/-!
# Dates and times

The moments that a settings file can hold: a date, a time of day, or both, the last with or
without an offset from universal time. Fractions of a second are kept to the microsecond.

* `Moment` — a date, a time or both;
* `Moment.display` — the moment as running text;
* `Moment.literal` — the moment as an expression that builds it, which messages show;
* `Date.isValid` — whether the calendar has the day.
-/

namespace SymbolAtlas.Toml

/-- A day of the calendar. -/
structure Date where
  year : Nat
  month : Nat
  day : Nat
  deriving DecidableEq, Repr

/-- A time of day. -/
structure Time where
  hour : Nat
  minute : Nat
  second : Nat
  micro : Nat
  deriving DecidableEq, Repr

/-- A moment, as precise as it was written. The offset is counted in minutes. -/
inductive Moment
  | date (d : Date)
  | time (t : Time)
  | both (d : Date) (t : Time) (offset : Option Int)
  deriving DecidableEq, Repr

/-- Whether a year has a 29th of February. -/
def isLeapYear (y : Nat) : Bool :=
  y % 4 == 0 && (y % 100 != 0 || y % 400 == 0)

/-- The number of days of a month. -/
def daysInMonth (y m : Nat) : Nat :=
  if m = 2 then (if isLeapYear y then 29 else 28)
  else if m = 4 || m = 6 || m = 9 || m = 11 then 30
  else 31

/-- Whether the calendar, which begins with the year one, has the day. -/
def Date.isValid (d : Date) : Bool :=
  1 ≤ d.year && 1 ≤ d.month && d.month ≤ 12 && 1 ≤ d.day &&
    d.day ≤ daysInMonth d.year d.month

/-- A number with zeros in front of it up to a width. -/
def padded (width n : Nat) : String :=
  let digits := toString n
  String.ofList (List.replicate (width - digits.length) '0') ++ digits

/-- A date as running text. -/
def Date.display (d : Date) : String :=
  s!"{padded 4 d.year}-{padded 2 d.month}-{padded 2 d.day}"

/-- A time as running text; the fraction is left out if it is zero. -/
def Time.display (t : Time) : String :=
  let fraction := if t.micro = 0 then "" else s!".{padded 6 t.micro}"
  s!"{padded 2 t.hour}:{padded 2 t.minute}:{padded 2 t.second}{fraction}"

/-- An offset as running text. -/
def displayOffset (minutes : Int) : String :=
  let sign := if minutes < 0 then "-" else "+"
  let n := minutes.natAbs
  s!"{sign}{padded 2 (n / 60)}:{padded 2 (n % 60)}"

/-- A moment as running text. -/
def Moment.display : Moment → String
  | .date d => d.display
  | .time t => t.display
  | .both d t offset =>
    let zone := (offset.map displayOffset).getD ""
    s!"{d.display} {t.display}{zone}"

/-- The numbers that a date is built from. -/
def Date.numbers (d : Date) : List Nat :=
  [d.year, d.month, d.day]

/-- The numbers that a time is built from; a second and a fraction of zero are left out. -/
def Time.numbers (t : Time) : List Nat :=
  [t.hour, t.minute] ++
    (if t.micro ≠ 0 then [t.second, t.micro] else if t.second ≠ 0 then [t.second] else [])

/-- The numbers with commas between them. -/
def listed (ns : List Nat) : String :=
  Text.join ", " (ns.map toString)

/-- The expression that builds an offset. -/
def offsetLiteral (minutes : Int) : String :=
  if minutes = 0 then "datetime.timezone.utc"
  else
    let seconds := minutes * 60
    let days := if seconds < 0 then "days=-1, " else ""
    s!"datetime.timezone(datetime.timedelta({days}seconds={seconds.emod 86400}))"

/-- The expression that builds a moment. -/
def Moment.literal : Moment → String
  | .date d => s!"datetime.date({listed d.numbers})"
  | .time t => s!"datetime.time({listed t.numbers})"
  | .both d t offset =>
    let zone := match offset with
      | some minutes => s!", tzinfo={offsetLiteral minutes}"
      | none => ""
    s!"datetime.datetime({listed (d.numbers ++ t.numbers)}{zone})"

/-- The calls that writing the expression takes up for the offset. -/
def Moment.zoneCalls : Moment → Nat
  | .both _ _ (some minutes) => if minutes = 0 then 1 else 2
  | _ => 0

end SymbolAtlas.Toml
