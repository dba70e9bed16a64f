import SymbolAtlas.Number.Numeral
import SymbolAtlas.Toml.Value

/-!
# Reading the parts of a document

Blanks, comments, keys, texts, numbers and moments at the front of the characters of a document.
The grammar is that of TOML 1.0; line ends are line feeds here.

* `Step` — what reading a part gives;
* `Scan.key` — a dotted key;
* `Scan.basicText`, `Scan.literalText` — texts in double and single quotes;
* `Scan.moment?`, `Scan.number?` — moments and numbers.
-/

namespace SymbolAtlas.Toml

/-- Why a document is not read. -/
inductive ReadError
  /-- The document breaks the grammar where this many characters are left. -/
  | malformed (left : Nat)
  /-- The key is already taken, or leads into something that cannot be extended. -/
  | conflict (key : List String)
  /-- A decimal integer has too many digits. -/
  | longInteger
  /-- Lists and tables in braces are nested too deeply. -/
  | tooDeep
  deriving DecidableEq, Repr

/-- A result and the characters after it. -/
abbrev Step (α : Type) := Except ReadError (α × List Char)

namespace Scan

/-- Malformed at these characters. -/
def malformed {α : Type} (cs : List Char) : Step α :=
  .error (.malformed cs.length)

/-! ## Blanks and comments -/

/-- A blank within a line. -/
def isBlank (c : Char) : Bool :=
  c = ' ' || c = '\t'

/-- A blank or a line end. -/
def isGap (c : Char) : Bool :=
  isBlank c || c = '\n'

/-- A control character, which texts and comments may not hold; the tab is none. -/
def isControl (c : Char) : Bool :=
  (c.toNat < 32 || c.toNat == 127) && c != '\t'

/-- The characters after the blanks at the front. -/
def skipBlanks (cs : List Char) : List Char :=
  cs.dropWhile isBlank

/-- The characters after a comment, if there is one. -/
def skipComment (cs : List Char) : Except ReadError (List Char) :=
  match cs with
  | '#' :: rest =>
    let (comment, after) := rest.span (· != '\n')
    if comment.any isControl then .error (.malformed cs.length) else .ok after
  | cs => .ok cs

mutual

/-- The characters after blanks, line ends and comments. -/
def skipGaps : List Char → Except ReadError (List Char)
  | [] => .ok []
  | c :: cs =>
    if isGap c then skipGaps cs else if c = '#' then skipCommentAndGaps cs else .ok (c :: cs)

/-- The characters after the rest of a comment and the gaps behind it. -/
def skipCommentAndGaps : List Char → Except ReadError (List Char)
  | [] => .ok []
  | c :: cs =>
    if c = '\n' then skipGaps cs
    else if isControl c then .error (.malformed (cs.length + 1))
    else skipCommentAndGaps cs

end

/-! ## Texts -/

/-- The character with the number that hexadecimal digits write. -/
def hexChar? (digits : List Char) : Option Char := do
  let ds ← digits.mapM Text.hexDigitValue?
  let n := Text.ofDigits 16 ds
  if n.isValidChar then some (Char.ofNat n) else none

/-- The character that a backslash and a letter stand for. -/
def escaped? : Char → Option Char
  | 'b' => some '\x08'
  | 't' => some '\t'
  | 'n' => some '\n'
  | 'f' => some '\x0C'
  | 'r' => some '\r'
  | '"' => some '"'
  | '\\' => some '\\'
  | _ => none

/-- A text in double quotes after its first quote; `done` holds the characters read, last
first. -/
def basicTail (done : List Char) : List Char → Step (List Char)
  | [] => malformed []
  | '"' :: rest => .ok (done.reverse, rest)
  | '\\' :: 'u' :: a :: b :: c :: d :: rest =>
    match hexChar? [a, b, c, d] with
    | some x => basicTail (x :: done) rest
    | none => malformed rest
  | '\\' :: 'U' :: a :: b :: c :: d :: e :: f :: g :: h :: rest =>
    match hexChar? [a, b, c, d, e, f, g, h] with
    | some x => basicTail (x :: done) rest
    | none => malformed rest
  | '\\' :: c :: rest =>
    match escaped? c with
    | some x => basicTail (x :: done) rest
    | none => malformed rest
  | c :: rest => if isControl c then malformed rest else basicTail (c :: done) rest

/-- Where the reading of a text over several lines in double quotes is. -/
inductive Place
  /-- Among its characters. -/
  | text
  /-- After a backslash and a blank: nothing but blanks may follow on the line. -/
  | lineEnd
  /-- After a backslash that ended its line: blanks and line ends are skipped. -/
  | gap
  deriving DecidableEq, Repr

/-- A text over several lines in double quotes, after its first quotes; `done` holds the
characters read, last first. -/
def longBasicTail (done : List Char) : Place → List Char → Step (List Char)
  | _, [] => malformed []
  | .lineEnd, c :: rest =>
    if c = '\n' then longBasicTail done .gap rest
    else if isBlank c then longBasicTail done .lineEnd rest
    else malformed rest
  | _, '"' :: '"' :: '"' :: rest => .ok (done.reverse, rest)
  | _, '\\' :: 'u' :: a :: b :: c :: d :: rest =>
    match hexChar? [a, b, c, d] with
    | some x => longBasicTail (x :: done) .text rest
    | none => malformed rest
  | _, '\\' :: 'U' :: a :: b :: c :: d :: e :: f :: g :: h :: rest =>
    match hexChar? [a, b, c, d, e, f, g, h] with
    | some x => longBasicTail (x :: done) .text rest
    | none => malformed rest
  | _, '\\' :: c :: rest =>
    if c = '\n' then longBasicTail done .gap rest
    else if isBlank c then longBasicTail done .lineEnd rest
    else
      match escaped? c with
      | some x => longBasicTail (x :: done) .text rest
      | none => malformed rest
  | place, c :: rest =>
    if place = .gap && isGap c then longBasicTail done .gap rest
    else if isControl c && c != '\n' then malformed rest
    else longBasicTail (c :: done) .text rest

/-- A text in single quotes after its first quote. -/
def literalTail (cs : List Char) : Step (List Char) :=
  match cs.span (· != '\'') with
  | (text, '\'' :: rest) => if text.any isControl then malformed cs else .ok (text, rest)
  | _ => malformed cs

/-- A text over several lines in single quotes, after its first quotes. -/
def longLiteralTail (cs : List Char) : Step (List Char) :=
  match Text.cutAtText ['\'', '\'', '\''] cs with
  | some (text, rest) =>
    if text.any fun c => isControl c && c != '\n' then malformed cs else .ok (text, rest)
  | none => malformed cs

/-- Up to two quotes right after a text over several lines belong to it. -/
def extraQuotes (q : Char) : List Char × List Char → List Char × List Char
  | (text, a :: b :: rest) =>
    if a = q then (if b = q then (text ++ [q, q], rest) else (text ++ [q], b :: rest))
    else (text, a :: b :: rest)
  | (text, [a]) => if a = q then (text ++ [q], []) else (text, [a])
  | r => r

/-- The characters after one line end, if they begin with one. -/
def dropLineEnd : List Char → List Char
  | '\n' :: cs => cs
  | cs => cs

/-- A text in double quotes, over several lines if there are three of them. -/
def basicText (cs : List Char) : Step (List Char) :=
  match cs with
  | '"' :: '"' :: '"' :: rest =>
    (longBasicTail [] .text (dropLineEnd rest)).map (extraQuotes '"')
  | '"' :: rest => basicTail [] rest
  | _ => malformed cs

/-- A text in single quotes, over several lines if there are three of them. -/
def literalText (cs : List Char) : Step (List Char) :=
  match cs with
  | '\'' :: '\'' :: '\'' :: rest => (longLiteralTail (dropLineEnd rest)).map (extraQuotes '\'')
  | '\'' :: rest => literalTail rest
  | _ => malformed cs

/-! ## Keys -/

/-- A character of a bare key. -/
def isBare (c : Char) : Bool :=
  c.isAlphanum || c = '-' || c = '_'

/-- One part of a key: bare, or a text on one line. -/
def keyPart (cs : List Char) : Step String :=
  match cs with
  | '"' :: rest =>
    (basicTail [] rest).map fun (k, rest) => (String.ofList k, rest)
  | '\'' :: rest => (literalTail rest).map fun (k, rest) => (String.ofList k, rest)
  | _ =>
    match cs.span isBare with
    | ([], _) => malformed cs
    | (k, rest) => .ok (String.ofList k, rest)

/-- A dotted key and the blanks after it. The fuel bounds the parts. -/
def key : Nat → List Char → Step (List String)
  | 0, cs => malformed cs
  | fuel + 1, cs =>
    match keyPart cs with
    | .error e => .error e
    | .ok (k, rest) =>
      match skipBlanks rest with
      | '.' :: rest => (key fuel (skipBlanks rest)).map fun (ks, rest) => (k :: ks, rest)
      | rest => .ok ([k], rest)

/-! ## Moments -/

/-- The number that exactly `width` digits at the front write, if it is in the range. -/
def fixed? (width low high : Nat) (cs : List Char) : Option (Nat × List Char) := do
  let ds ← (cs.take width).mapM Text.asciiDigitValue?
  let n := Text.ofDigits 10 ds
  if ds.length = width && low ≤ n && n ≤ high then some (n, cs.drop width) else none

/-- The characters after the given one. -/
def after? (c : Char) : List Char → Option (List Char)
  | d :: cs => if c = d then some cs else none
  | [] => none

/-- The digits of a date; whether the calendar has the day is not asked. -/
def date? (cs : List Char) : Option (Date × List Char) := do
  let (year, cs) ← fixed? 4 0 9999 cs
  let cs ← after? '-' cs
  let (month, cs) ← fixed? 2 1 12 cs
  let cs ← after? '-' cs
  let (day, cs) ← fixed? 2 1 31 cs
  pure (⟨year, month, day⟩, cs)

/-- The fraction of a second in microseconds, further digits being cut off. -/
def fraction (cs : List Char) : Nat × List Char :=
  match cs with
  | '.' :: rest =>
    match rest.span Char.isDigit with
    | ([], _) => (0, cs)
    | (ds, rest) =>
      let ds := (ds.take 6).map fun c => c.toNat - 48
      (Text.ofDigits 10 (ds ++ List.replicate (6 - ds.length) 0), rest)
  | _ => (0, cs)

/-- A time of day. -/
def time? (cs : List Char) : Option (Time × List Char) := do
  let (hour, cs) ← fixed? 2 0 23 cs
  let cs ← after? ':' cs
  let (minute, cs) ← fixed? 2 0 59 cs
  let cs ← after? ':' cs
  let (second, cs) ← fixed? 2 0 59 cs
  let (micro, cs) := fraction cs
  pure (⟨hour, minute, second, micro⟩, cs)

/-- Hours and minutes after the sign of an offset. -/
def offsetTail? (sign : Int) (cs : List Char) : Option (Int × List Char) := do
  let (hour, cs) ← fixed? 2 0 23 cs
  let cs ← after? ':' cs
  let (minute, cs) ← fixed? 2 0 59 cs
  pure (sign * (hour * 60 + minute : Nat), cs)

/-- An offset, if one is there. -/
def offset (cs : List Char) : Option Int × List Char :=
  let found := match cs with
    | 'Z' :: rest => some (0, rest)
    | 'z' :: rest => some (0, rest)
    | '+' :: rest => offsetTail? 1 rest
    | '-' :: rest => offsetTail? (-1) rest
    | _ => none
  match found with
  | some (minutes, rest) => (some minutes, rest)
  | none => (none, cs)

/-- The time after a date: a `T` or one blank stands between the two. -/
def timeAfterDate? : List Char → Option (Time × List Char)
  | c :: cs => if c = 'T' || c = 't' || c = ' ' then time? cs else none
  | [] => none

/-- A moment. -/
def moment? (cs : List Char) : Option (Moment × List Char) :=
  match date? cs with
  | some (d, rest) =>
    match timeAfterDate? rest with
    | some (t, rest) =>
      let (zone, rest) := offset rest
      some (.both d t zone, rest)
    | none => some (.date d, rest)
  | none => (time? cs).map fun (t, rest) => (.time t, rest)

/-- Whether the calendar has the day of a moment. -/
def hasDay : Moment → Bool
  | .date d => d.isValid
  | .both d _ _ => d.isValid
  | .time _ => true

/-! ## Numbers -/

/-- The value of a digit in a base. -/
def digitIn (base : Nat) (c : Char) : Option Nat :=
  (Text.hexDigitValue? c).filter (· < base)

/-- An integer in another base than ten, after the letter that names the base. -/
def inBase? (base : Nat) (cs : List Char) : Option (Int × List Char) :=
  match Numeral.runOf (digitIn base) cs with
  | ([], _) => none
  | (ds, rest) => some (Text.ofDigits base ds, rest)

/-- An integer with a letter for its base. -/
def based? : List Char → Option (Int × List Char)
  | '0' :: 'x' :: cs => inBase? 16 cs
  | '0' :: 'o' :: cs => inBase? 8 cs
  | '0' :: 'b' :: cs => inBase? 2 cs
  | _ => none

/-- The whole part of a decimal number: a zero, or digits that do not begin with one. -/
def whole? (cs : List Char) : Option (List Nat × List Char) :=
  match cs with
  | '0' :: rest => some ([0], rest)
  | _ =>
    match Numeral.runOf Text.asciiDigitValue? cs with
    | ([], _) => none
    | r => some r

/-- The digits behind a point, if there are any. -/
def decimals (cs : List Char) : Option (List Nat) × List Char :=
  match cs with
  | '.' :: rest =>
    match Numeral.runOf Text.asciiDigitValue? rest with
    | ([], _) => (none, cs)
    | (ds, rest) => (some ds, rest)
  | _ => (none, cs)

/-- The exponent, if a complete one is there. -/
def exponent (cs : List Char) : Option Int × List Char :=
  match cs with
  | c :: rest =>
    if c = 'e' || c = 'E' then
      let (negative, body) := Numeral.takeSign rest
      match Numeral.runOf Text.asciiDigitValue? body with
      | ([], _) => (none, cs)
      | (ds, rest) =>
        (some (if negative then -(Text.ofDigits 10 ds : Int) else Text.ofDigits 10 ds), rest)
    else (none, cs)
  | [] => (none, cs)

/-- A number that is written with digits. -/
def number? (cs : List Char) : Option (Step Value) :=
  match based? cs with
  | some (n, rest) => some (.ok (.int n, rest))
  | none =>
    let (negative, body) := Numeral.takeSign cs
    match whole? body with
    | none => none
    | some (ds, rest) =>
      let (frac, rest) := decimals rest
      let (exp, rest) := exponent rest
      if frac.isNone && exp.isNone then
        if Numeral.maxDigits < ds.length then some (.error .longInteger)
        else
          let n : Int := Text.ofDigits 10 ds
          some (.ok (.int (if negative then -n else n), rest))
      else
        let frac := frac.getD []
        let x := Binary64.ofDecimal negative (Text.ofDigits 10 (ds ++ frac))
          (exp.getD 0 - frac.length)
        some (.ok (.float x, rest))

/-- A number that has a name instead of digits. -/
def named? (cs : List Char) : Option (Binary64 × List Char) :=
  let (negative, body) := Numeral.takeSign cs
  match body with
  | 'i' :: 'n' :: 'f' :: rest => some (.infinite negative, rest)
  | 'n' :: 'a' :: 'n' :: rest => some (.nan, rest)
  | _ => none

end Scan

end SymbolAtlas.Toml
