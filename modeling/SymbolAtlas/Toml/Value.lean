import SymbolAtlas.Fields
import SymbolAtlas.Number.Shortest
import SymbolAtlas.Text.Quoted
import SymbolAtlas.Toml.Moment

/-!
# Settings values

What a setting can be: the values of a TOML document, and the absence of one, which a caller may
put in the place of a value.

* `Value` — a value;
* `Value.display` — the value as running text;
* `Value.literal` — the value with its texts quoted;
* `Value.literalError?` — why a value is not written out in that way;
* `Value.truthy` — whether a value counts as given.
-/

namespace SymbolAtlas.Toml

/-- The value of a setting. -/
inductive Value
  /-- No value; documents never hold it. -/
  | absent
  | bool (b : Bool)
  | int (n : Int)
  | float (x : Binary64)
  | text (t : Text)
  | moment (m : Moment)
  | list (items : List Value)
  | table (fields : List (String × Value))
  deriving Repr, Inhabited

/-- Why a value is not written out. -/
inductive LiteralError
  /-- An integer in it has too many digits. -/
  | longInteger
  /-- It is nested too deeply. -/
  | tooDeep
  deriving DecidableEq, Repr

namespace Value

open Text

/-- A table of settings. -/
abbrev Table := Fields String Value

mutual

/-- The characters of a value with its texts quoted. -/
def literalChars : Value → List Char
  | .absent => "None".toList
  | .bool b => (if b then "True" else "False").toList
  | .int n => (toString n).toList
  | .float x => x.render.toList
  | .text t => quotedChars t
  | .moment m => m.literal.toList
  | .list items => '[' :: literalItems items ++ [']']
  | .table fields => '\x7b' :: literalFields fields ++ ['\x7d']

/-- The items of a list. -/
def literalItems : List Value → List Char
  | [] => []
  | [v] => literalChars v
  | v :: w :: vs => literalChars v ++ ',' :: ' ' :: literalItems (w :: vs)

/-- The fields of a table. -/
def literalFields : List (String × Value) → List Char
  | [] => []
  | [(k, v)] => quotedChars k ++ ':' :: ' ' :: literalChars v
  | (k, v) :: f :: fs =>
    quotedChars k ++ ':' :: ' ' :: literalChars v ++ ',' :: ' ' :: literalFields (f :: fs)

end

/-- The value with its texts quoted. -/
def literal (v : Value) : String :=
  String.ofList (literalChars v)

/-- The value as running text. -/
def display (v : Value) : Text :=
  match v with
  | .text t => t
  | .moment m => m.display
  | v => v.literal

/-- Whether the value counts as given: everything but nothing, `false`, zero and what is
empty. -/
def truthy : Value → Bool
  | .absent => false
  | .bool b => b
  | .int n => n != 0
  | .float x => !x.isZero
  | .text t => !t.isEmpty
  | .moment _ => true
  | .list items => !items.isEmpty
  | .table fields => !fields.isEmpty

/-- Whether an integer has more digits than are ever written out. -/
def isLongInteger (n : Int) : Bool :=
  decide (Nat.pow 10 4300 ≤ n.natAbs)

mutual

/-- Why a value is not written with its texts quoted, the first reason that is met. Writing takes up
a call for the value and one for each that leads to what is in it; `room` calls are left. -/
def literalError? : Nat → Value → Option LiteralError
  | 0, _ => some .tooDeep
  | _ + 1, .int n => if isLongInteger n then some .longInteger else none
  | room + 1, .moment m => if room < m.zoneCalls then some .tooDeep else none
  | room + 1, .list items => itemsError? room items
  | room + 1, .table fields => fieldsError? room fields
  | _ + 1, _ => none

/-- The same for the items of a list. -/
def itemsError? : Nat → List Value → Option LiteralError
  | _, [] => none
  | room, v :: vs => (literalError? room v).or (itemsError? room vs)

/-- The same for the fields of a table. -/
def fieldsError? : Nat → List (String × Value) → Option LiteralError
  | _, [] => none
  | room, (_, v) :: fs => (literalError? room v).or (fieldsError? room fs)

end

end Value

end SymbolAtlas.Toml
