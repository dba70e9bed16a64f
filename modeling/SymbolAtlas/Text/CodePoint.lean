/-!
# Texts of others

The texts that messages carry are written by somebody else, and an escape in them may stand for
half of a surrogate pair alone. Such a text is a list of code points, of which most are characters;
it can be read, compared, cut and shown, but it has no bytes. Whatever is written here is a
`String`, and counts as a text where one is needed.

* `CodePoint` — a character or a surrogate that stands alone;
* `Text` — a list of code points, with `Text.ofString` and `Text.toString?`.
-/

namespace SymbolAtlas

/-- A code point of a text. -/
inductive CodePoint
  | char (c : Char)
  /-- A surrogate that stands alone, counted from U+D800. -/
  | surrogate (offset : Fin 2048)
  deriving DecidableEq, Repr

/-- A text in which surrogates may stand alone. -/
abbrev Text := List CodePoint

namespace CodePoint

/-- The number of a code point. -/
def value : CodePoint → Nat
  | .char c => c.toNat
  | .surrogate k => 0xD800 + k

/-- The character that a code point is, if it is one. -/
def char? : CodePoint → Option Char
  | .char c => some c
  | .surrogate _ => none

end CodePoint

namespace Text

/-- The text of some characters. -/
def ofChars (cs : List Char) : Text :=
  cs.map .char

/-- The text that a string is. -/
def ofString (s : String) : Text :=
  ofChars s.toList

instance : Coe String Text := ⟨ofString⟩

/-- The characters of a text, if it has no surrogate. -/
def toChars? (t : Text) : Option (List Char) :=
  t.mapM CodePoint.char?

/-- The string that a text is, if it has no surrogate. -/
def toString? (t : Text) : Option String :=
  t.toChars?.map String.ofList

/-- Whether a list comes before another or is the same: the first elements in which they differ
tell, and a list comes before what it begins. -/
def lexLe {α : Type} [DecidableEq α] (le : α → α → Bool) : List α → List α → Bool
  | [], _ => true
  | _ :: _, [] => false
  | a :: as, b :: bs => if a = b then lexLe le as bs else le a b

/-- Whether a text comes before another or is the same, by the numbers of their code points. -/
def le (t u : Text) : Bool :=
  lexLe (fun a b => decide (a.value ≤ b.value)) t u

/-- Reading the characters back. -/
theorem toChars?_ofChars (cs : List Char) : toChars? (ofChars cs) = some cs := by
  induction cs with
  | nil => rfl
  | cons c cs ih =>
    simp only [toChars?, ofChars] at ih
    simp [toChars?, ofChars, CodePoint.char?, ih]

/-- A text that has characters is the text of these. -/
theorem eq_ofChars_of_toChars? {t : Text} {cs : List Char} (h : t.toChars? = some cs) :
    t = ofChars cs := by
  induction t generalizing cs with
  | nil =>
    obtain rfl : [] = cs := Option.some.inj h
    rfl
  | cons p t ih =>
    cases p with
    | char c =>
      simp only [toChars?, List.mapM_cons, CodePoint.char?, Option.bind_eq_bind,
        Option.bind_some] at h
      obtain ⟨ds, hds, hcs⟩ := Option.bind_eq_some_iff.1 h
      obtain rfl : c :: ds = cs := Option.some.inj hcs
      rw [ih hds]
      rfl
    | surrogate k => simp [toChars?, CodePoint.char?] at h

/-- Reading the string back. -/
theorem toString?_ofString (s : String) : toString? (ofString s) = some s := by
  simp [toString?, ofString, toChars?_ofChars]

end Text

end SymbolAtlas
