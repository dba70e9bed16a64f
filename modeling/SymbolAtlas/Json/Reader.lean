import SymbolAtlas.Json.Basic
import SymbolAtlas.Number.Numeral
import SymbolAtlas.Text.Classes

/-!
# Reading JSON

A text is read as one value with blanks around it. The grammar is RFC 8259 with three additions:
`NaN`, `Infinity` and `-Infinity` are numbers. A name that occurs twice in an object keeps the
place of its first occurrence and the value of its last. Integers may have up to
`Numeral.maxDigits` digits. A value may be nested as deeply as calls are left to read what is in it:
each array and each object takes up one, and so does a number that is written as a word. How many
are left is for the caller to say, who has taken up some already. Each limit has its own error, and
the first error in reading order is the one reported.

Two escaped surrogates in a row that form a pair are one character; any other escaped surrogate
stands alone in the text.

* `Json.Reader.value` — one value at the front of the characters;
* `Json.read` — a whole text.
-/

namespace SymbolAtlas.Json

/-- Why a text is not read. -/
inductive ReadError
  /-- The text breaks the grammar where this many characters are left. -/
  | malformed (left : Nat)
  /-- An integer has too many digits. -/
  | longInteger
  /-- The values are nested too deeply. -/
  | tooDeep
  deriving DecidableEq, Repr

namespace Reader

/-- What a reading step gives: a result and the characters after it. -/
abbrev Step (α : Type) := Except ReadError (α × List Char)

/-- Malformed at these characters. -/
def malformed {α : Type} (cs : List Char) : Step α :=
  .error (.malformed cs.length)

/-- The characters that may stand between tokens. -/
def isGap (c : Char) : Bool :=
  c = ' ' || c = '\t' || c = '\n' || c = '\r'

/-- The characters after the gap at the front. -/
def skipGap (cs : List Char) : List Char :=
  cs.dropWhile isGap

/-- The unit that four hexadecimal digits write. -/
def hexUnit? (a b c d : Char) : Option Nat := do
  let a ← Text.hexDigitValue? a
  let b ← Text.hexDigitValue? b
  let c ← Text.hexDigitValue? c
  let d ← Text.hexDigitValue? d
  pure (Text.ofDigits 16 [a, b, c, d])

/-- Whether the unit is the first half of a surrogate pair. -/
def isHighHalf (u : Nat) : Bool := 0xD800 ≤ u && u ≤ 0xDBFF

/-- Whether the unit is the second half of a surrogate pair. -/
def isLowHalf (u : Nat) : Bool := 0xDC00 ≤ u && u ≤ 0xDFFF

/-- The character of two escaped units in a row, if they are a surrogate pair. -/
def pairChar? (u : Nat) (next : Option Nat) : Option Char :=
  match next with
  | some v =>
    if isHighHalf u && isLowHalf v then
      some (Char.ofNat (0x10000 + (u - 0xD800) * 1024 + (v - 0xDC00)))
    else none
  | none => none

/-- The code point of an escaped unit by itself. -/
def unitPoint (u : Nat) : CodePoint :=
  if isHighHalf u || isLowHalf u then .surrogate (Fin.ofNat 2048 (u - 0xD800))
  else .char (Char.ofNat u)

/-- The character that a letter behind a backslash stands for. -/
def escapedChar? (c : Char) : Option Char :=
  if c = '"' || c = '\\' || c = '/' then some c
  else if c = 'b' then some '\x08'
  else if c = 'f' then some '\x0C'
  else if c = 'n' then some '\n'
  else if c = 'r' then some '\r'
  else if c = 't' then some '\t'
  else none

/-- The code points of a string after its opening quote; `done` holds those read, last first. -/
def stringTail (done : Text) : List Char → Step Text
  | [] => malformed []
  | '"' :: rest => .ok (done.reverse, rest)
  | '\\' :: 'u' :: a :: b :: c :: d :: rest =>
    match hexUnit? a b c d with
    | none => malformed rest
    | some u =>
      match rest with
      | '\\' :: 'u' :: e :: f :: g :: h :: more =>
        match pairChar? u (hexUnit? e f g h) with
        | some x => stringTail (.char x :: done) more
        | none => stringTail (unitPoint u :: done) ('\\' :: 'u' :: e :: f :: g :: h :: more)
      | rest => stringTail (unitPoint u :: done) rest
  | '\\' :: c :: rest =>
    match escapedChar? c with
    | some x => stringTail (.char x :: done) rest
    | none => malformed rest
  | c :: rest =>
    if c.toNat < 0x20 || c = '\\' then malformed rest else stringTail (.char c :: done) rest

/-- A string after its opening quote. -/
def string (cs : List Char) : Step Text :=
  stringTail [] cs

/-- The ASCII digits at the front. -/
def digits (cs : List Char) : List Char × List Char :=
  cs.span Char.isDigit

/-- The number that ASCII digits write. -/
def natOf (ds : List Char) : Nat :=
  Text.ofDigits 10 (ds.map fun c => c.toNat - 48)

/-- The digits behind a point, if at least one is there. -/
def fraction : List Char → Option (List Char) × List Char
  | '.' :: cs =>
    match digits cs with
    | ([], _) => (none, '.' :: cs)
    | (ds, rest) => (some ds, rest)
  | cs => (none, cs)

/-- The exponent, if a complete one is there. -/
def exponent (cs : List Char) : Option Int × List Char :=
  match cs with
  | c :: more =>
    if c = 'e' || c = 'E' then
      let (negative, body) := Numeral.takeSign more
      match digits body with
      | ([], _) => (none, cs)
      | (ds, rest) => (some (if negative then -(natOf ds : Int) else natOf ds), rest)
    else (none, cs)
  | [] => (none, cs)

/-- The whole part of a number: a zero, or digits that do not begin with one. -/
def whole? : List Char → Option (List Char × List Char)
  | '0' :: cs => some (['0'], cs)
  | cs =>
    match digits cs with
    | ([], _) => none
    | (ds, rest) => some (ds, rest)

/-- A number after its sign. It is an integer if it has neither a fraction nor an exponent. -/
def number (negative : Bool) (cs : List Char) : Step Json :=
  match whole? cs with
  | none => malformed cs
  | some (ds, rest) =>
    match fraction rest with
    | (frac, rest) =>
      match exponent rest with
      | (exp, rest) =>
        if frac.isNone && exp.isNone then
          if Numeral.maxDigits < ds.length then .error .longInteger
          else .ok (.int (if negative then -(natOf ds : Int) else natOf ds), rest)
        else
          let frac := frac.getD []
          .ok (.float (.ofDecimal negative (natOf (ds ++ frac)) (exp.getD 0 - frac.length)), rest)

/-- The characters after a word, if it is at the front. -/
def word? (w : String) (cs : List Char) : Option (List Char) :=
  if w.toList.isPrefixOf cs then some (cs.drop w.length) else none

/-- A number that is written as a word. -/
def named (depth : Nat) (x : Binary64) (rest : List Char) : Step Json :=
  if depth = 0 then .error .tooDeep else .ok (.float x, rest)

/-- A value that is no string, array or object. -/
def scalar (depth : Nat) (cs : List Char) : Step Json :=
  match cs with
  | 'n' :: _ => (word? "null" cs).elim (malformed cs) fun rest => .ok (.null, rest)
  | 't' :: _ => (word? "true" cs).elim (malformed cs) fun rest => .ok (.bool true, rest)
  | 'f' :: _ => (word? "false" cs).elim (malformed cs) fun rest => .ok (.bool false, rest)
  | 'N' :: _ => (word? "NaN" cs).elim (malformed cs) (named depth .nan)
  | 'I' :: _ => (word? "Infinity" cs).elim (malformed cs) (named depth (.infinite false))
  | '-' :: more =>
    match word? "Infinity" more with
    | some rest => named depth (.infinite true) rest
    | none => number true more
  | _ => number false cs

mutual

/-- One value at the front of the characters. The fuel bounds the values looked at, the depth is the
number of calls that are left. -/
def value (fuel depth : Nat) (cs : List Char) : Step Json :=
  match fuel with
  | 0 => malformed cs
  | fuel + 1 =>
    match cs with
    | '"' :: rest =>
      match string rest with
      | .error e => .error e
      | .ok (s, rest) => .ok (.str s, rest)
    | '[' :: rest =>
      match depth with
      | 0 => .error .tooDeep
      | depth + 1 =>
        match skipGap rest with
        | ']' :: rest => .ok (.arr [], rest)
        | rest => items fuel depth [] rest
    | '\x7b' :: rest =>
      match depth with
      | 0 => .error .tooDeep
      | depth + 1 =>
        match skipGap rest with
        | '\x7d' :: rest => .ok (.obj [], rest)
        | rest => fields fuel depth [] rest
    | _ => scalar depth cs

/-- The items of an array up to its bracket; `done` holds those read, last first. -/
def items (fuel depth : Nat) (done : List Json) (cs : List Char) : Step Json :=
  match fuel with
  | 0 => malformed cs
  | fuel + 1 =>
    match value fuel depth cs with
    | .error e => .error e
    | .ok (v, rest) =>
      match skipGap rest with
      | ',' :: rest => items fuel depth (v :: done) (skipGap rest)
      | ']' :: rest => .ok (.arr (v :: done).reverse, rest)
      | rest => malformed rest

/-- The fields of an object up to its brace; `done` holds those read, last first. -/
def fields (fuel depth : Nat) (done : List (Text × Json)) (cs : List Char) : Step Json :=
  match fuel with
  | 0 => malformed cs
  | fuel + 1 =>
    match cs with
    | '"' :: rest =>
      match string rest with
      | .error e => .error e
      | .ok (k, rest) =>
        match skipGap rest with
        | ':' :: rest =>
          match value fuel depth (skipGap rest) with
          | .error e => .error e
          | .ok (v, rest) =>
            match skipGap rest with
            | ',' :: rest => fields fuel depth ((k, v) :: done) (skipGap rest)
            | '\x7d' :: rest => .ok (.obj (Fields.ofPairs ((k, v) :: done).reverse), rest)
            | rest => malformed rest
        | rest => malformed rest
    | _ => malformed cs

end

end Reader

/-- The value that a whole text writes. A value and what is in it take up two parts of the fuel, so
twice the number of characters is enough. -/
def readChars (depth : Nat) (cs : List Char) : Except ReadError Json :=
  match Reader.value (2 * cs.length + 2) depth (Reader.skipGap cs) with
  | .error e => .error e
  | .ok (v, rest) =>
    match Reader.skipGap rest with
    | [] => .ok v
    | rest => .error (.malformed rest.length)

/-- The value that a whole text writes. -/
def read (depth : Nat) (s : String) : Except ReadError Json :=
  readChars depth s.toList

end SymbolAtlas.Json
