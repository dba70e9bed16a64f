import SymbolAtlas.Text.CodePoint

/-!
# Wildcards

Patterns for names: `*` stands for any characters, `?` for any one character, and brackets for one
character of a set, in which a hyphen between two characters means all from the one to the other
and `!` at the beginning means all others. A bracket that is not closed stands for itself.

* `Wildcard.CharSet` — what stands in brackets;
* `Wildcard` — a part of a pattern, with `Wildcard.parse`;
* `Wildcard.covers` — whether the parts match a name as a whole.
-/

namespace SymbolAtlas

namespace Wildcard

/-- The characters from one to another. -/
structure Span where
  first : CodePoint
  last : CodePoint
  deriving DecidableEq, Repr

/-- A set of characters: those in the spans, or all others. -/
structure CharSet where
  negated : Bool
  spans : List Span
  deriving DecidableEq, Repr

/-- Whether a character is in the span. -/
def Span.holds (s : Span) (p : CodePoint) : Bool :=
  decide (s.first.value ≤ p.value) && decide (p.value ≤ s.last.value)

/-- Whether a character is in the set. -/
def CharSet.holds (s : CharSet) (p : CodePoint) : Bool :=
  (s.spans.any fun span => span.holds p) != s.negated

/-- The spans that are written in brackets. -/
def spansOf : Text → List Span
  | a :: .char '-' :: b :: rest => ⟨a, b⟩ :: spansOf rest
  | a :: rest => ⟨a, a⟩ :: spansOf rest
  | [] => []

/-- Whether a span holds any character. -/
def Span.isInhabited (s : Span) : Bool :=
  decide (s.first.value ≤ s.last.value)

/-- The set of the spans. An exclamation mark that comes first after empty spans were left out
negates what follows it, a hyphen behind it being a character like others. -/
def CharSet.ofSpans (spans : List Span) : CharSet :=
  match spans.filter Span.isInhabited with
  | ⟨.char '!', .char '!'⟩ :: rest => ⟨true, rest⟩
  | ⟨.char '!', last⟩ :: rest => ⟨true, ⟨.char '-', .char '-'⟩ :: ⟨last, last⟩ :: rest⟩
  | spans => ⟨false, spans⟩

/-- The set that is written in brackets. -/
def CharSet.parse : Text → CharSet
  | .char '!' :: cs => ⟨true, (spansOf cs).filter Span.isInhabited⟩
  | cs => .ofSpans (spansOf cs)

/-- What stands in brackets and after them, given what follows the opening bracket. A closing
bracket at the beginning, or right after an exclamation mark there, is a character like others. -/
def bracketed (cs : Text) : Option (Text × Text) :=
  let lead := match cs with
    | .char '!' :: .char ']' :: _ => 2
    | .char '!' :: _ => 1
    | .char ']' :: _ => 1
    | _ => 0
  match (cs.drop lead).span (· != .char ']') with
  | (_, []) => none
  | (inner, _ :: rest) => some (cs.take lead ++ inner, rest)

end Wildcard

/-- A part of a pattern. -/
inductive Wildcard
  /-- Any characters. -/
  | star
  /-- Any character. -/
  | any
  /-- A character of a set. -/
  | among (set : Wildcard.CharSet)
  /-- The character itself. -/
  | exactly (p : CodePoint)
  deriving DecidableEq, Repr

namespace Wildcard

/-- The parts of a pattern. The fuel bounds their number. -/
def parseFrom : Nat → Text → List Wildcard
  | 0, _ => []
  | _, [] => []
  | fuel + 1, .char '*' :: cs => .star :: parseFrom fuel cs
  | fuel + 1, .char '?' :: cs => .any :: parseFrom fuel cs
  | fuel + 1, .char '[' :: cs =>
    match bracketed cs with
    | some (inner, rest) => .among (CharSet.parse inner) :: parseFrom fuel rest
    | none => .exactly (.char '[') :: parseFrom fuel cs
  | fuel + 1, p :: cs => .exactly p :: parseFrom fuel cs

/-- The parts of a pattern. -/
def parse (t : Text) : List Wildcard :=
  parseFrom t.length t

/-- Whether a text has a character that makes it a pattern. -/
def isWild (t : Text) : Bool :=
  t.any fun p => p == .char '*' || p == .char '?' || p == .char '['

/-- The ends of a text, beginning with the whole text. -/
def ends : Text → List Text
  | [] => [[]]
  | c :: cs => (c :: cs) :: ends cs

/-- Whether the parts match the text as a whole. -/
def covers : List Wildcard → Text → Bool
  | [], cs => cs.isEmpty
  | .star :: ws, cs => (ends cs).any (covers ws)
  | .any :: ws, cs =>
    match cs with
    | [] => false
    | _ :: cs => covers ws cs
  | .among set :: ws, cs =>
    match cs with
    | [] => false
    | c :: cs => set.holds c && covers ws cs
  | .exactly a :: ws, cs =>
    match cs with
    | [] => false
    | c :: cs => a == c && covers ws cs

end Wildcard

end SymbolAtlas
