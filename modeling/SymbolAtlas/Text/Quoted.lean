import SymbolAtlas.Text.CodePoint
import SymbolAtlas.Text.Classes
import SymbolAtlas.Text.Printable

/-!
# Quoted texts

How a message shows a text of somebody else's: in quotes, on one line, with nothing invisible
left in it. The quotes are single unless the text holds a single quote and no double one.

A text may also hold sequences that tell a terminal how to show what follows: an escape character,
an opening bracket, any number of digits, semicolons and question marks, and a letter. Where no
terminal is there to read them, they are left out.

* `quoteFor` — which quote a text gets;
* `escape` — one character between such quotes;
* `quoted` — the text with its quotes;
* `escaped` — the text as it is, only its surrogates being written as escapes;
* `dropStyles` — the text without what is meant for a terminal.
-/

namespace SymbolAtlas.Text

/-- The quote that a text is put in. -/
def quoteFor (t : Text) : Char :=
  if t.contains (.char '\'') && !t.contains (.char '"') then '"' else '\''

/-- One character between the quotes `q`. -/
def escape (q c : Char) : List Char :=
  if c = q || c = '\\' then ['\\', c]
  else if c = '\n' then ['\\', 'n']
  else if c = '\r' then ['\\', 'r']
  else if c = '\t' then ['\\', 't']
  else if isPrintable c then [c]
  else if c.toNat < 0x100 then '\\' :: 'x' :: hexDigits 2 c.toNat
  else if c.toNat < 0x10000 then '\\' :: 'u' :: hexDigits 4 c.toNat
  else '\\' :: 'U' :: hexDigits 8 c.toNat

/-- A surrogate as an escape. -/
def escapeSurrogate (offset : Fin 2048) : List Char :=
  '\\' :: 'u' :: hexDigits 4 (CodePoint.surrogate offset).value

/-- One code point between the quotes `q`. -/
def escapePoint (q : Char) : CodePoint → List Char
  | .char c => escape q c
  | .surrogate k => escapeSurrogate k

/-- The characters of a text in quotes. -/
def quotedChars (t : Text) : List Char :=
  let q := quoteFor t
  q :: t.flatMap (escapePoint q) ++ [q]

/-- The text in quotes. -/
def quoted (t : Text) : String :=
  String.ofList (quotedChars t)

/-- One code point, surrogates being escaped. -/
def showPoint : CodePoint → List Char
  | .char c => [c]
  | .surrogate k => escapeSurrogate k

/-- The text with its surrogates as escapes. -/
def escaped (t : Text) : String :=
  String.ofList (t.flatMap showPoint)

/-! ## Terminal styles -/

/-- Whether a code point may stand between the bracket and the letter of a style. -/
def isStyleMark : CodePoint → Bool
  | .char c => c == ';' || c == '?' || c.isDigit
  | .surrogate _ => false

/-- How many code points of a style follow its escape character, given what follows it; nothing
if no style begins there. -/
def styleLength? : Text → Option Nat
  | .char '[' :: t =>
    match t.dropWhile isStyleMark with
    | .char c :: _ => if c.isAlpha then some ((t.takeWhile isStyleMark).length + 2) else none
    | _ => none
  | _ => none

/-- The text without styles, its first `skip` code points being the rest of one. -/
def dropStylesFrom : Nat → Text → Text
  | _, [] => []
  | skip + 1, _ :: t => dropStylesFrom skip t
  | 0, c :: t =>
    match if c = .char '\x1b' then styleLength? t else none with
    | some length => dropStylesFrom length t
    | none => c :: dropStylesFrom 0 t

/-- The text without styles. -/
def dropStyles (t : Text) : Text :=
  dropStylesFrom 0 t

end SymbolAtlas.Text
