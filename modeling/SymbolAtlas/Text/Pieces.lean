/-!
# Cutting texts

* `pieces` — the parts of a text between the occurrences of a character, empty parts included;
* `joinPieces` — the parts again in one text;
* `cutAt` — a text around the first occurrence of a character;
* `cutAtText` — a text around the first occurrence of a text;
* `universalNewlines` — carriage returns, alone or before a line feed, read as line feeds.
-/

namespace SymbolAtlas.Text

variable {α : Type} [DecidableEq α]

/-- The parts between the occurrences of `sep`. There is always one part more than separators. -/
def pieces (sep : α) : List α → List (List α)
  | [] => [[]]
  | c :: cs =>
    if c = sep then [] :: pieces sep cs
    else match pieces sep cs with
      | [] => [[c]]
      | p :: ps => (c :: p) :: ps

omit [DecidableEq α] in
/-- The parts with `sep` between neighbours. -/
def joinPieces (sep : List α) : List (List α) → List α
  | [] => []
  | [p] => p
  | p :: q :: ps => p ++ sep ++ joinPieces sep (q :: ps)

/-- The lines of a text, cut at line feeds only. -/
def linesOf (s : String) : List String :=
  (pieces '\n' s.toList).map String.ofList

/-- The lines with a line feed between neighbours. -/
def unlines (ls : List String) : String :=
  String.ofList (joinPieces ['\n'] (ls.map String.toList))

/-- The texts with `sep` between neighbours. -/
def join (sep : String) (parts : List String) : String :=
  String.ofList (joinPieces sep.toList (parts.map String.toList))

/-- What stands before and after the first occurrence of `sep`, if there is one. -/
def cutAt (sep : α) : List α → Option (List α × List α)
  | [] => none
  | c :: cs =>
    if c = sep then some ([], cs)
    else (cutAt sep cs).map fun (before, after) => (c :: before, after)

/-- What stands before and after the first occurrence of the text `sep`, if there is one. -/
def cutAtText (sep : List α) : List α → Option (List α × List α)
  | [] => if sep.isEmpty then some ([], []) else none
  | c :: cs =>
    if sep.isPrefixOf (c :: cs) then some ([], (c :: cs).drop sep.length)
    else (cutAtText sep cs).map fun (before, after) => (c :: before, after)

/-- Whether the text `part` occurs in the text. -/
def hasText (part : String) (s : String) : Bool :=
  (cutAtText part.toList s.toList).isSome

/-- Line ends as a text file is read: `\r\n` and a lone `\r` are one line feed. -/
def universalNewlines : List Char → List Char
  | [] => []
  | '\r' :: '\n' :: cs => '\n' :: universalNewlines cs
  | c :: cs => (if c = '\r' then '\n' else c) :: universalNewlines cs

/-- Lower case for the ASCII letters; every other character stays. -/
def lowerAscii (s : String) : String :=
  String.ofList (s.toList.map Char.toLower)

theorem pieces_ne_nil (sep : α) (cs : List α) : pieces sep cs ≠ [] := by
  cases cs with
  | nil => simp [pieces]
  | cons c cs =>
    simp only [pieces]
    split
    · simp
    · split <;> simp

/-- Cutting at a character and joining again gives the text back. -/
theorem joinPieces_pieces (sep : α) (cs : List α) :
    joinPieces [sep] (pieces sep cs) = cs := by
  induction cs with
  | nil => rfl
  | cons c cs ih =>
    simp only [pieces]
    split
    · next h =>
      cases hp : pieces sep cs with
      | nil => exact absurd hp (pieces_ne_nil sep cs)
      | cons p ps => rw [hp] at ih; simp [joinPieces, ih, h]
    · cases hp : pieces sep cs with
      | nil => exact absurd hp (pieces_ne_nil sep cs)
      | cons p ps =>
        rw [hp] at ih
        cases ps with
        | nil => simpa [joinPieces] using ih
        | cons q qs => simpa [joinPieces] using ih

end SymbolAtlas.Text
