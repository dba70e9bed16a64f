import SymbolAtlas.Chunks.Chunk
import SymbolAtlas.Journal

/-!
# Collecting methods

The methods in the symbols of a document, each with the nearest type around it and the lines of
its range. The symbols are visited in the order in which they are shown, with a stack of the
symbols still to come, each with the type around it.

* `MethodChunk.sourceSlice` — the lines of a range;
* `MethodChunk.findings` — the methods, and those that stand outside every type;
* `MethodChunk.extract` — the methods alone;
* `MethodChunk.orphanEntries` — the journal entries about the others.
-/

namespace SymbolAtlas.MethodChunk

open Lsp

/-- The kinds that count as types. -/
def isTypeKind (k : NodeKind) : Bool :=
  k.is .classKind || k.is .interface || k.is .enum

/-- The lines from `first` to `last`, both included, as far as they exist. -/
def sliceLines (lines : List String) (first last : Nat) : String :=
  Text.unlines ((lines.drop first).take (last + 1 - first))

/-- The source of a symbol, empty if its range is not known. -/
def sourceSlice (lines : List String) (n : SymbolNode) : String :=
  match n.location.bind SymbolPlacement.range with
  | some r => sliceLines lines r.start.line r.stop.line
  | none => ""

/-- What a visited symbol contributes. -/
inductive Finding
  /-- A method in a type. -/
  | chunk (c : MethodChunk)
  /-- A method outside every type. -/
  | orphan (name : Text)
  deriving Repr

/-- The chunk of a method in a type. -/
def ofNode (lines : List String) (className : Text) (n : SymbolNode) : MethodChunk :=
  let signature := Signature.ofDetail n.detail
  { className := className, methodName := n.name, returnType := signature.returnType,
    parameters := signature.parameters, code := sourceSlice lines n, location := n.location }

/-- What a symbol contributes when the given type is the nearest around it, itself included. -/
def visit (lines : List String) (enclosing : Option Text) (n : SymbolNode) : List Finding :=
  if n.kind.is .method then
    match enclosing with
    | some className => [.chunk (ofNode lines className n)]
    | none => [.orphan n.name]
  else []

/-- The nearest type around the children of a symbol. -/
def enclosingFor (enclosing : Option Text) (n : SymbolNode) : Option Text :=
  if isTypeKind n.kind then some n.name else enclosing

/-- The findings of a stack whose next symbol is the first one. The fuel is the number of symbols
in the stack. -/
def findingsStack (lines : List String) :
    Nat → List (Option Text × SymbolNode) → List Finding
  | 0, _ => []
  | _ + 1, [] => []
  | fuel + 1, (enclosing, n) :: stack =>
    let inner := enclosingFor enclosing n
    visit lines inner n ++
      findingsStack lines fuel (n.children.map (fun c => (inner, c)) ++ stack)

/-- The findings in the symbols of a document with the given text. -/
def findings (ns : List SymbolNode) (text : String) : List Finding :=
  findingsStack (Text.linesOf text) (SymbolNode.sizeAll ns) (ns.map fun n => (none, n))

/-- The chunk of a finding. -/
def Finding.chunk? : Finding → Option MethodChunk
  | .chunk c => some c
  | .orphan _ => none

/-- The journal entry about a finding. -/
def Finding.entry? : Finding → Option Entry
  | .chunk _ => none
  | .orphan name =>
    some { level := .warning, event := "chunks.method_without_type",
           fields := [("method", .str name)] }

/-- The methods in the symbols of a document. -/
def extract (ns : List SymbolNode) (text : String) : List MethodChunk :=
  (findings ns text).filterMap Finding.chunk?

/-- The journal entries about methods outside every type. -/
def orphanEntries (ns : List SymbolNode) (text : String) : List Entry :=
  (findings ns text).filterMap Finding.entry?

end SymbolAtlas.MethodChunk
