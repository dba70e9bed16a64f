import SymbolAtlas.Json.Basic
import SymbolAtlas.Number.Shortest
import SymbolAtlas.Text.Classes

/-!
# Writing JSON

Two layouts of the same values. On the wire a message is one line, with a blank after each comma
and colon, and what is beyond ASCII as it is. For people a value is spread over lines, indented by
two columns, and pure ASCII: a character beyond the basic plane is written as a pair of
surrogates.

* `Json.render` — one line;
* `Json.renderIndented` — many lines, ASCII only.
-/

namespace SymbolAtlas.Json

open Text

/-- A character below U+0020, a quote or a backslash in a string. -/
def escapeControl (c : Char) : Option (List Char) :=
  if c = '"' then some ['\\', '"']
  else if c = '\\' then some ['\\', '\\']
  else if c = '\n' then some ['\\', 'n']
  else if c = '\r' then some ['\\', 'r']
  else if c = '\t' then some ['\\', 't']
  else if c = '\x08' then some ['\\', 'b']
  else if c = '\x0C' then some ['\\', 'f']
  else if c.toNat < 0x20 then some ('\\' :: 'u' :: hexDigits 4 c.toNat)
  else none

/-- A code point in a string on the wire. -/
def escapeWire : CodePoint → Text
  | .char c => ofChars ((escapeControl c).getD [c])
  | .surrogate k => [.surrogate k]

/-- A unit of sixteen bits as an escape. -/
def escapeUnit (n : Nat) : List Char :=
  '\\' :: 'u' :: hexDigits 4 n

/-- A character in an ASCII string. -/
def escapeAsciiChar (c : Char) : List Char :=
  match escapeControl c with
  | some cs => cs
  | none =>
    let n := c.toNat
    if n < 0x7F then [c]
    else if n < 0x10000 then escapeUnit n
    else
      let m := n - 0x10000
      escapeUnit (0xD800 + m / 1024) ++ escapeUnit (0xDC00 + m % 1024)

/-- A code point in an ASCII string. -/
def escapeAscii : CodePoint → List Char
  | .char c => escapeAsciiChar c
  | .surrogate k => escapeUnit (CodePoint.surrogate k).value

/-- A string on the wire between its quotes. -/
def quoteWire (s : Text) : Text :=
  "\"" ++ s.flatMap escapeWire ++ "\""

/-- An ASCII string between its quotes. -/
def quoteAscii (s : Text) : List Char :=
  '"' :: s.flatMap escapeAscii ++ ['"']

/-- The text of a floating-point number; the values without digits have names. -/
def floatText (x : Binary64) : String :=
  match x with
  | .nan => "NaN"
  | .infinite negative => if negative then "-Infinity" else "Infinity"
  | .finite .. => x.render

/-- The text of a number, a truth value or `null`. -/
def scalarText : Json → String
  | .null => "null"
  | .bool b => if b then "true" else "false"
  | .int n => toString n
  | .float x => floatText x
  | _ => ""

mutual

/-- The value on one line. -/
def render : Json → Text
  | .str s => quoteWire s
  | .arr items => "[" ++ renderItems items ++ "]"
  | .obj fields => "\x7b" ++ renderFields fields ++ "\x7d"
  | .null => scalarText .null
  | .bool b => scalarText (.bool b)
  | .int n => scalarText (.int n)
  | .float x => scalarText (.float x)

/-- The items of an array on one line. -/
def renderItems : List Json → Text
  | [] => []
  | [v] => render v
  | v :: w :: vs => render v ++ ", " ++ renderItems (w :: vs)

/-- The fields of an object on one line. -/
def renderFields : List (Text × Json) → Text
  | [] => []
  | [(k, v)] => quoteWire k ++ ": " ++ render v
  | (k, v) :: f :: fs => quoteWire k ++ ": " ++ render v ++ ", " ++ renderFields (f :: fs)

end

/-- A new line at a depth of nesting. -/
def newline (depth : Nat) : List Char :=
  '\n' :: List.replicate (2 * depth) ' '

mutual

/-- The characters of a value spread over lines, at a depth of nesting. -/
def indentChars (depth : Nat) : Json → List Char
  | .str s => quoteAscii s
  | .arr [] => ['[', ']']
  | .arr (v :: vs) =>
    '[' :: newline (depth + 1) ++ indentItems (depth + 1) (v :: vs) ++ newline depth ++ [']']
  | .obj [] => ['\x7b', '\x7d']
  | .obj (f :: fs) =>
    '\x7b' :: newline (depth + 1) ++ indentFields (depth + 1) (f :: fs) ++ newline depth ++
      ['\x7d']
  | .null => scalarText .null |>.toList
  | .bool b => scalarText (.bool b) |>.toList
  | .int n => scalarText (.int n) |>.toList
  | .float x => scalarText (.float x) |>.toList

/-- The items of an array, each on its line. -/
def indentItems (depth : Nat) : List Json → List Char
  | [] => []
  | [v] => indentChars depth v
  | v :: w :: vs => indentChars depth v ++ ',' :: newline depth ++ indentItems depth (w :: vs)

/-- The fields of an object, each on its line. -/
def indentFields (depth : Nat) : List (Text × Json) → List Char
  | [] => []
  | [(k, v)] => quoteAscii k ++ ':' :: ' ' :: indentChars depth v
  | (k, v) :: f :: fs =>
    quoteAscii k ++ ':' :: ' ' :: indentChars depth v ++ ',' :: newline depth ++
      indentFields depth (f :: fs)

end

/-- The value spread over lines, in ASCII. -/
def renderIndented (v : Json) : String :=
  String.ofList (indentChars 0 v)

end SymbolAtlas.Json
