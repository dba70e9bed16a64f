import SymbolAtlas.Text.Classes
import SymbolAtlas.Text.Pieces

/-!
# Method signatures

What a symbol's detail says about a method, such as `(String a, List<B> b) : void`: the
parameters in parentheses and, after a colon between blanks, the return type.

* `Signature.ofDetail` — the return type and the parameters of a detail;
* `Signature.splitParameters` — a list of parameters cut at the commas outside angle brackets.
-/

namespace SymbolAtlas

/-- What is known of a method besides its name. -/
structure Signature where
  returnType : Text
  parameters : List Text
  deriving DecidableEq, Repr

namespace Signature

open Text

/-- The return type of a method whose detail names none. -/
def defaultReturnType : Text := "void"

/-- The text without one opening parenthesis at the front and one closing at the end. -/
def unwrap (t : Text) : Text :=
  let t := match t with
    | .char '(' :: rest => rest
    | t => t
  if t.getLast? = some (.char ')') then t.dropLast else t

/-- The depth in angle brackets after a code point; it does not fall below zero. -/
def nest (depth : Nat) (c : CodePoint) : Nat :=
  if c = .char '<' then depth + 1 else if c = .char '>' then depth - 1 else depth

/-- The parts between the commas at depth zero, `depth` being the depth at the front. -/
def splitAtDepth (depth : Nat) : Text → List Text
  | [] => [[]]
  | c :: cs =>
    if c = .char ',' && depth == 0 then [] :: splitAtDepth depth cs
    else match splitAtDepth (nest depth c) cs with
      | [] => [[c]]
      | p :: ps => (c :: p) :: ps

/-- The parameters that a text lists with or without its parentheses; blank ones are left out. -/
def splitParameters (t : Text) : List Text :=
  ((splitAtDepth 0 (unwrap (trim t))).map trim).filter fun p => !p.isEmpty

/-- What stands between the parameters and the return type. -/
def separator : Text := " : "

/-- Whether the text, blanks at its ends aside, stands in parentheses. -/
def isParenthesized (t : Text) : Bool :=
  let t := trim t
  t.head? = some (.char '(') && t.getLast? = some (.char ')')

/-- The signature in a text. One with the separator in it twice or more says nothing, and neither
does one without it that is not in parentheses. -/
def ofText (t : Text) : Signature :=
  match cutAtText separator t with
  | none => ⟨defaultReturnType, if isParenthesized t then splitParameters t else []⟩
  | some (before, after) =>
    if (cutAtText separator after).isSome then ⟨defaultReturnType, []⟩
    else
      let type := trim after
      ⟨if type.isEmpty then defaultReturnType else type, splitParameters before⟩

/-- The signature in a detail. -/
def ofDetail : Option Text → Signature
  | none => ⟨defaultReturnType, []⟩
  | some t => ofText t

end Signature

end SymbolAtlas
