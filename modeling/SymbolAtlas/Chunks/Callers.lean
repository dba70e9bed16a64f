import SymbolAtlas.Chunks.Chunk

/-!
# Callers and callees

From the places that refer to each method to the call graph. A reference belongs to the first
method whose lines contain it and whose qualified name is another one; the declaration itself is
no reference.

* `CallGraph.caller?` — the number of the method that a reference belongs to;
* `CallGraph.edges` — all calls, as pairs of the numbers of callee and caller, in the order in
  which they are found;
* `CallGraph.link` — the methods with their callers and callees;
* `CallGraph.linkWith` — the same with the references asked for on the way.
-/

namespace SymbolAtlas.CallGraph

open Lsp

/-- Whether the reference is the place where the method is declared. -/
def isDeclaration (target : MethodChunk) (r : Location) : Bool :=
  match target.location with
  | some { uri := uri, selection := some selection, .. } =>
    r.uri == uri && r.range.start == selection.start
  | _ => false

/-- Whether the lines of the method contain those of the reference. -/
def encloses (caller : MethodChunk) (r : Location) : Bool :=
  match caller.location with
  | some { uri := uri, range := some range, .. } =>
    uri == r.uri && range.start.line ≤ r.range.start.line && r.range.stop.line ≤ range.stop.line
  | _ => false

/-- The number of the method that a reference to `target` belongs to. -/
def caller? (chunks : List MethodChunk) (target : MethodChunk) (r : Location) : Option Nat :=
  if isDeclaration target r then none
  else chunks.findIdx? fun c => c.qualifiedName != target.qualifiedName && encloses c r

/-- A call: the numbers of the callee and of the caller. -/
abbrev Edge := Nat × Nat

/-- The calls of all methods, `refs` holding the references to each. -/
def edges (chunks : List MethodChunk) (refs : List (List Location)) : List Edge :=
  ((chunks.zip refs).zipIdx.map fun ((target, rs), i) =>
    (rs.filterMap (caller? chunks target)).map fun j => (i, j)).flatten

/-- The qualified names of the methods with the given numbers, each once, in the order in which
they first occur. -/
def namesOf (chunks : List MethodChunk) (numbers : List Nat) : List Text :=
  (numbers.filterMap fun j => chunks[j]?.map MethodChunk.qualifiedName).eraseDups

/-- The callers of the method with number `i`. -/
def callersOf (chunks : List MethodChunk) (es : List Edge) (i : Nat) : List Text :=
  namesOf chunks (es.filterMap fun e => if e.1 = i then some e.2 else none)

/-- The callees of the method with number `j`. -/
def calleesOf (chunks : List MethodChunk) (es : List Edge) (j : Nat) : List Text :=
  namesOf chunks (es.filterMap fun e => if e.2 = j then some e.1 else none)

/-- The methods with their callers and callees, `refs` holding the references to each. -/
def link (chunks : List MethodChunk) (refs : List (List Location)) : List MethodChunk :=
  let es := edges chunks refs
  chunks.zipIdx.map fun (c, i) =>
    { c with calledBy := callersOf chunks es i, dependencies := calleesOf chunks es i }

/-- The number of callers over all methods. -/
def edgeCount (chunks : List MethodChunk) : Nat :=
  chunks.foldl (fun n c => n + c.calledBy.length) 0

/-- Asks for the references to each method that has a selection range, in order, and calls
`skip` for the others. -/
def collect {m : Type → Type} [Monad m] (lookup : MethodChunk → m (List Location))
    (skip : MethodChunk → m Unit) (chunks : List MethodChunk) : m (List (List Location)) :=
  chunks.mapM fun c =>
    if c.selection?.isSome then lookup c
    else do
      skip c
      pure []

/-- The methods with their callers and callees, the references being asked for on the way. -/
def linkWith {m : Type → Type} [Monad m] (lookup : MethodChunk → m (List Location))
    (skip : MethodChunk → m Unit) (chunks : List MethodChunk) : m (List MethodChunk) := do
  let refs ← collect lookup skip chunks
  pure (link chunks refs)

section

variable {m : Type → Type} [Monad m] [LawfulMonad m] {lookup : MethodChunk → m (List Location)}
  {skip : MethodChunk → m Unit} {c : MethodChunk}

theorem collect_append (cs cs' : List MethodChunk) :
    collect lookup skip (cs ++ cs') = (do
      let refs ← collect lookup skip cs
      let refs' ← collect lookup skip cs'
      pure (refs ++ refs')) := by
  simp [collect]

theorem collect_of_selection (h : c.selection?.isSome = true) :
    collect lookup skip [c] = (do
      let refs ← lookup c
      pure [refs]) := by
  simp [collect, h]

theorem collect_of_no_selection (h : c.selection? = none) :
    collect lookup skip [c] = (do
      skip c
      pure [[]]) := by
  simp [collect, h]

end

end SymbolAtlas.CallGraph
