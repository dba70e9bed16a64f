import SymbolAtlas.Lsp.Types

/-!
# Symbol trees

The one form that symbols have after they were received, whether the server sent them flat,
nested, or as hits of a search.

They are shown and collected in one order: each symbol, then everything in it, then the symbols
beside it. The walk keeps a stack of the symbols still to come with their depths, so it needs no
more room for a deep tree than for a wide one.

* `NodeKind` — a kind the protocol knows, or the bare code of one it does not;
* `SymbolPlacement` — the document of a symbol and its ranges in it, as far as they are known;
* `SymbolNode` — a symbol with the symbols in it;
* `SymbolNode.size` — the number of symbols in a tree;
* `SymbolNode.walk` — the symbols of a forest with their depths, `SymbolNode.count` being their
  number;
* `SymbolNode.renderTree` — a line for each symbol, indented by its depth;
* `SymbolNode.renderHits` — a numbered block for each hit of a search, with lines and columns
  counted from one.
-/

namespace SymbolAtlas

open Lsp

/-- What a symbol is: a kind that the protocol knows, or a bare code. -/
inductive NodeKind
  | known (k : SymbolKind)
  | bare (code : Int)
  deriving DecidableEq, Repr

namespace NodeKind

/-- The code of a kind. -/
def code : NodeKind → Int
  | .known k => k.code
  | .bare n => n

/-- The kind with a code. -/
def ofCode (n : Int) : NodeKind :=
  match SymbolKind.ofCode? n with
  | some k => .known k
  | none => .bare n

/-- The name of a kind; a bare code is its own name. -/
def label : NodeKind → String
  | .known k => k.label
  | .bare n => toString n

/-- Whether the kind is the given one, however it is written. -/
def is (k : NodeKind) (other : SymbolKind) : Bool :=
  k.code == (other.code : Int)

end NodeKind

/-- Where a symbol is. -/
structure SymbolPlacement where
  uri : Text
  range : Option Range := none
  selection : Option Range := none
  deriving DecidableEq, Repr

/-- A symbol with the symbols in it. -/
structure SymbolNode where
  name : Text
  kind : NodeKind
  location : Option SymbolPlacement
  detail : Option Text
  children : List SymbolNode
  /-- Whether the symbol came in a flat list. -/
  flat : Bool

namespace SymbolNode

mutual

/-- The number of symbols in a tree. -/
def size : SymbolNode → Nat
  | ⟨_, _, _, _, children, _⟩ => sizeAll children + 1

/-- The number of symbols in several trees. -/
def sizeAll : List SymbolNode → Nat
  | [] => 0
  | n :: ns => size n + sizeAll ns

end

theorem size_eq (n : SymbolNode) : n.size = sizeAll n.children + 1 := by
  cases n
  simp [size]

theorem sizeAll_append (ns ms : List SymbolNode) :
    sizeAll (ns ++ ms) = sizeAll ns + sizeAll ms := by
  induction ns with
  | nil => simp [sizeAll]
  | cons n ns ih => simp [sizeAll, ih, Nat.add_assoc]

/-! ## The walk -/

/-- The walk over a stack whose next symbol is the first one. The fuel is the number of symbols
in the stack. -/
def walkStack : Nat → List (Nat × SymbolNode) → List (Nat × SymbolNode)
  | 0, _ => []
  | _ + 1, [] => []
  | fuel + 1, (depth, n) :: stack =>
    (depth, n) :: walkStack fuel (n.children.map (fun c => (depth + 1, c)) ++ stack)

/-- The symbols of a forest, each with its depth, in the order in which they are shown. -/
def walk (ns : List SymbolNode) : List (Nat × SymbolNode) :=
  walkStack (sizeAll ns) (ns.map fun n => (0, n))

/-- The number of symbols in a forest. -/
def count (ns : List SymbolNode) : Nat :=
  (walk ns).length

/-! ## Lines -/

/-- The line of a symbol. A symbol from a flat list shows its document. -/
def line (depth : Nat) (n : SymbolNode) : Text :=
  let indent := Text.ofChars (List.replicate (2 * depth) ' ')
  let place : Text := match n.flat, n.location with
    | true, some l => " [" ++ l.uri ++ "]"
    | _, _ => ""
  indent ++ "- " ++ n.name ++ s!" ({n.kind.label})" ++ place

/-- The lines of a forest. -/
def renderTree (ns : List SymbolNode) : List Text :=
  (walk ns).map fun (depth, n) => line depth n

/-- The lines of a hit. -/
def hitLines (number : Nat) (n : SymbolNode) : List Text :=
  let place : List Text := match n.location with
    | none => []
    | some l =>
      let range : List Text := match l.range with
        | none => []
        | some r => [s!"   Range: Line {r.start.line + 1}, Col {r.start.character + 1}"]
      ("   Location: " ++ l.uri) :: range
  let container : List Text := match n.detail with
    | some d => if d.isEmpty then [] else ["   Container: " ++ d]
    | none => []
  [s!"{number}. " ++ n.name, s!"   Kind: {n.kind.label}"] ++ place ++ container

/-- The lines of all hits, a blank line after each. -/
def renderHits (ns : List SymbolNode) : List Text :=
  if ns.isEmpty then ["No symbols found"]
  else ((ns.zipIdx 1).map fun (n, number) => hitLines number n ++ [[]]).flatten

end SymbolNode

end SymbolAtlas
