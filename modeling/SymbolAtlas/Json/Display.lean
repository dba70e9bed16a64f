import SymbolAtlas.Json.Basic
import SymbolAtlas.Number.Shortest
import SymbolAtlas.Text.Quoted

/-!
# Showing values in messages

How a message shows a value that it was not meant to hold. Texts inside a list or a table are
quoted; a text on its own is shown as it is.

* `Json.literal` — the value with its texts quoted;
* `Json.display` — the value as running text.
-/

namespace SymbolAtlas.Json

open Text

mutual

/-- The characters of a value with its texts quoted. -/
def literalChars : Json → List Char
  | .null => "None".toList
  | .bool b => (if b then "True" else "False").toList
  | .int n => (toString n).toList
  | .float x => x.render.toList
  | .str s => quotedChars s
  | .arr items => '[' :: literalItems items ++ [']']
  | .obj fields => '\x7b' :: literalFields fields ++ ['\x7d']

/-- The items of a list. -/
def literalItems : List Json → List Char
  | [] => []
  | [v] => literalChars v
  | v :: w :: vs => literalChars v ++ ',' :: ' ' :: literalItems (w :: vs)

/-- The fields of a table. -/
def literalFields : List (Text × Json) → List Char
  | [] => []
  | [(k, v)] => quotedChars k ++ ':' :: ' ' :: literalChars v
  | (k, v) :: f :: fs =>
    quotedChars k ++ ':' :: ' ' :: literalChars v ++ ',' :: ' ' :: literalFields (f :: fs)

end

/-- The value with its texts quoted. -/
def literal (v : Json) : String :=
  String.ofList (literalChars v)

/-- The value as running text. -/
def display (v : Json) : Text :=
  match v with
  | .str s => s
  | v => v.literal

end SymbolAtlas.Json
