import SymbolAtlas.Journal
import SymbolAtlas.Json.Display
import SymbolAtlas.Json.Writer
import SymbolAtlas.Text.Classes
import SymbolAtlas.Text.Pieces

/-!
# Showing the journal

Entries below a threshold are left out. The others are shown as lines for people, with the fields
in the order of their names, or as one JSON object a line. In a line the level and the time of the
entry take the place of fields of these names, the name of a logger stands in brackets before the
other fields, and a stack and an exception follow on lines of their own.

* `Threshold.ofName` — the threshold that a name stands for;
* `Entry.passes` — whether an entry reaches a threshold;
* `Entry.line` — an entry as a line for people;
* `Entry.json` — an entry as an object.
-/

namespace SymbolAtlas

open Text

/-! ## Thresholds -/

/-- The upper case of a character, as far as it matters for the names of thresholds: besides the
ASCII letters there are two whose upper case is an ASCII letter. -/
def upperLetter (c : Char) : Char :=
  if c = 'ı' then 'I' else if c = 'ſ' then 'S' else c.toUpper

namespace Threshold

/-- The threshold that entries have to reach unless another one is named. -/
def default : Nat := 20

/-- The thresholds by their names. -/
def table : Fields String Nat :=
  [("NOTSET", 0), ("DEBUG", 10), ("INFO", 20), ("WARNING", 30), ("WARN", 30), ("ERROR", 40),
    ("CRITICAL", 50), ("FATAL", 50)]

/-- The threshold that a name in any case stands for. -/
def ofName (name : String) : Nat :=
  (Fields.get? table (String.ofList (name.toList.map upperLetter))).getD default

end Threshold

namespace Entry

/-- Whether the entry reaches the threshold. -/
def passes (threshold : Nat) (e : Entry) : Bool :=
  threshold ≤ e.level.rank

/-! ## Lines -/

/-- The text with blanks after it, up to a width. -/
def padded (width : Nat) (s : String) : String :=
  s ++ String.ofList (List.replicate (width - s.length) ' ')

/-- The characters that a text must not hold to be shown without quotes. -/
def needQuotes : Text :=
  " \t=\r\n\"'"

/-- The value of a field. -/
def valueText (v : Json) : Text :=
  match v with
  | .str s => if s.any needQuotes.contains then quoted s else s
  | v => v.literal

/-- The fields of an entry. -/
def fieldTexts (fields : Json.Object) : List Text :=
  (fields.mergeSort fun a b => Text.le a.1 b.1).map fun (name, v) => name ++ "=" ++ valueText v

/-- The text without blanks at its end. -/
def dropBlanks (t : Text) : Text :=
  dropLastWhile (· = .char ' ') t

/-- The names of the fields that are not shown like others. -/
def setApart : List Text :=
  ["timestamp", "level", "logger", "logger_name", "stack", "exception", "exc_info"]

/-- The name of a logger in brackets. -/
def loggerTexts (fields : Json.Object) : List Text :=
  ["logger", "logger_name"].filterMap fun (name : String) =>
    (Fields.get? fields name).map fun v => "[" ++ v.display ++ "]"

/-- The lines of a field that has lines of its own; none for `null`. -/
def ownLines (fields : Json.Object) (name : String) : Option Text :=
  match Fields.get? fields name with
  | none | some .null => none
  | some v => some ("\n" ++ v.display)

/-- What stands between a stack and an exception. -/
def divider : String :=
  "\n\n" ++ String.ofList (List.replicate 79 '=') ++ "\n"

/-- The lines about a stack and an exception. Where an exception is announced, what divides it from
the stack is there even if the exception is not. -/
def traceText (fields : Json.Object) : Text :=
  let announced := (Json.fieldOrNull fields "exc_info").truthy
  match ownLines fields "stack", ownLines fields "exception" with
  | none, none => ""
  | some stack, none => if announced then stack ++ divider else stack
  | none, some exception => exception
  | some stack, some exception => stack ++ divider ++ exception

/-- The entry as a line for people, `time` saying when it was made. -/
def line (time : String) (e : Entry) : Text :=
  let head := s!"{time} [{padded 9 e.level.label}] {padded 30 e.event} "
  let others := e.fields.filter fun f => !setApart.contains f.1
  dropBlanks (head ++ joinPieces " " (loggerTexts e.fields ++ fieldTexts others)) ++
    traceText e.fields

/-! ## Objects -/

/-- The entry as an object, `time` saying when it was made. -/
def json (time : String) (e : Entry) : Json :=
  .obj (Fields.put (Fields.put (Fields.put e.fields "event" (.str e.event))
    "level" (.str e.level.label)) "timestamp" (.str time))

/-- The entry in one of the two forms. -/
def shown (asJson : Bool) (time : String) (e : Entry) : Text :=
  if asJson then (e.json time).render else e.line time

end Entry

end SymbolAtlas
