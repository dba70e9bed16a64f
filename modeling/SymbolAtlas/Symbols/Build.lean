import SymbolAtlas.Symbols.Node

/-!
# Building symbol trees

From the structures of the protocol to symbol trees. Flat symbols are single nodes. A nested
symbol is built with a stack: a symbol is met a first time, which puts its children on the stack,
and a second time, when the nodes of its children are ready in a table and are taken out of it.
The table is keyed by where a symbol stands in the tree, so equal symbols in different places
keep apart.

* `SymbolNode.ofInformation`, `SymbolNode.ofWorkspaceSymbol` — single nodes;
* `SymbolNode.ofDocumentSymbol` — a tree.
-/

namespace SymbolAtlas.SymbolNode

open Lsp

/-- The node of a flat symbol. -/
def ofInformation (s : SymbolInformation) : SymbolNode :=
  { name := s.name, kind := .known s.kind,
    location := some { uri := s.location.uri, range := some s.location.range },
    detail := s.containerName, children := [], flat := true }

/-- The node of a symbol found in the workspace. -/
def ofWorkspaceSymbol (s : WorkspaceSymbol) : SymbolNode :=
  { name := s.name, kind := .known s.kind,
    location := some { uri := s.location.uri, range := s.location.range? },
    detail := s.containerName, children := [], flat := true }

/-- The children of a nested symbol; listing none is the same as no list. -/
def childrenOf (s : DocumentSymbol) : List DocumentSymbol :=
  s.children.getD []

/-- The node of a nested symbol whose children's nodes are ready. -/
def ofParts (uri : Text) (s : DocumentSymbol) (children : List SymbolNode) : SymbolNode :=
  { name := s.name, kind := .known s.kind,
    location := some { uri := uri, range := some s.range, selection := some s.selectionRange },
    detail := s.detail, children := children, flat := false }

/-- Where a symbol stands in a tree: the numbers of the children on the way to it, innermost
first. -/
abbrev Place := List Nat

/-- The nodes that are ready, by the places of their symbols. -/
abbrev Table := List (Place × SymbolNode)

/-- Takes the node of a place out of the table. -/
def Table.take? (table : Table) (place : Place) : Option (SymbolNode × Table) :=
  match table with
  | [] => none
  | (p, n) :: rest =>
    if p = place then some (n, rest)
    else (take? rest place).map fun (m, rest) => (m, (p, n) :: rest)

/-- Takes the nodes of several places out of the table, in order. -/
def Table.takeAll? (table : Table) : List Place → Option (List SymbolNode × Table)
  | [] => some ([], table)
  | place :: places => do
    let (n, table) ← table.take? place
    let (ns, table) ← takeAll? table places
    pure (n :: ns, table)

/-- A symbol on the stack: where it stands, and whether its children were put there already. -/
structure Task where
  place : Place
  symbol : DocumentSymbol
  expanded : Bool

/-- The places of the children of a place. -/
def childPlaces (place : Place) (s : DocumentSymbol) : List Place :=
  (List.range (childrenOf s).length).map fun i => i :: place

/-- The tasks that the children of a symbol add to the stack: the last child is met first. -/
def childTasks (place : Place) (s : DocumentSymbol) : List Task :=
  ((childPlaces place s).zip (childrenOf s)).reverse.map fun (p, c) => ⟨p, c, false⟩

/-- Works through the stack, whose next task is the first one. Nothing comes out if the node of a
child is not in the table when it is needed, or if the fuel runs out. -/
def buildStack (uri : Text) : Nat → List Task → Table → Option Table
  | _, [], table => some table
  | 0, _ :: _, _ => none
  | fuel + 1, task :: stack, table =>
    if task.expanded then do
      let (children, table) ← table.takeAll? (childPlaces task.place task.symbol)
      buildStack uri fuel stack ((task.place, ofParts uri task.symbol children) :: table)
    else
      buildStack uri fuel
        (childTasks task.place task.symbol ++ { task with expanded := true } :: stack) table

mutual

/-- The number of symbols in a nested symbol. -/
def symbolCount : DocumentSymbol → Nat
  | ⟨_, _, _, _, _, _, _, children⟩ => optionCount children + 1

/-- The number of symbols in a list of children, if there is one. -/
def optionCount : Option (List DocumentSymbol) → Nat
  | none => 0
  | some ss => listCount ss

/-- The number of symbols in several nested symbols. -/
def listCount : List DocumentSymbol → Nat
  | [] => 0
  | s :: ss => symbolCount s + listCount ss

end

/-- The table when the stack for a symbol has been worked through. Each symbol is met twice. -/
def buildTable (uri : Text) (root : DocumentSymbol) : Option Table :=
  buildStack uri (2 * symbolCount root) [⟨[], root, false⟩] []

/-- The tree of a nested symbol. -/
def ofDocumentSymbol (uri : Text) (root : DocumentSymbol) : SymbolNode :=
  match (buildTable uri root).bind fun table => table.take? [] with
  | some (n, _) => n
  | none => ofParts uri root []

end SymbolAtlas.SymbolNode
