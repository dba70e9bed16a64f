import SymbolAtlas.Lsp.Types

/-!
# Encoding structures

The JSON form of the protocol's structures. Fields without a value are left out; lists that are
there but empty stay.

* `Encode.position`, `Encode.range`, `Encode.location` — places;
* `Encode.symbolInformation`, `Encode.documentSymbol`, `Encode.workspaceSymbol` — symbols;
* `Encode.diagnostic` and what follows it — reports of the server.
-/

namespace SymbolAtlas.Lsp.Encode

/-- The fields that have a value. -/
def present (fields : List (Text × Option Json)) : Json :=
  .obj (fields.filterMap fun (name, v) => v.map fun v => (name, v))

/-- A position. -/
def position (p : Position) : Json :=
  .obj [("line", .int p.line), ("character", .int p.character)]

@[simp] theorem nesting_position (p : Position) : (position p).nesting = 1 := by
  simp [position, Json.nesting, Json.nestingFields]

/-- A range. -/
def range (r : Range) : Json :=
  .obj [("start", position r.start), ("end", position r.stop)]

/-- A location. -/
def location (l : Location) : Json :=
  .obj [("uri", .str l.uri), ("range", range l.range)]

/-- A code. -/
def code (n : Nat) : Json := .int n

/-- Remarks on a symbol. -/
def symbolTags (ts : List SymbolTag) : Json :=
  .arr (ts.map fun t => code t.code)

/-- A symbol in a flat list. -/
def symbolInformation (s : SymbolInformation) : Json :=
  present [
    ("location", some (location s.location)),
    ("name", some (.str s.name)),
    ("kind", some (code s.kind.code)),
    ("deprecated", s.deprecated.map .bool),
    ("tags", s.tags.map symbolTags),
    ("containerName", s.containerName.map .str)]

mutual

/-- A symbol with the symbols in it. -/
def documentSymbol (s : DocumentSymbol) : Json :=
  match s with
  | ⟨name, kind, r, selection, detail, tags, deprecated, children⟩ =>
    present [
      ("name", some (.str name)),
      ("kind", some (code kind.code)),
      ("range", some (range r)),
      ("selectionRange", some (range selection)),
      ("detail", detail.map .str),
      ("tags", tags.map symbolTags),
      ("deprecated", deprecated.map .bool),
      ("children", childSymbols children)]

/-- The symbols in a symbol, if it lists any or none. -/
def childSymbols : Option (List DocumentSymbol) → Option Json
  | none => none
  | some cs => some (.arr (documentSymbols cs))

/-- Several symbols. -/
def documentSymbols : List DocumentSymbol → List Json
  | [] => []
  | s :: ss => documentSymbol s :: documentSymbols ss

end

/-- Where a symbol of the workspace is. -/
def symbolPlace : SymbolPlace → Json
  | .full l => location l
  | .document uri => .obj [("uri", .str uri)]

/-- A symbol found in the workspace. -/
def workspaceSymbol (s : WorkspaceSymbol) : Json :=
  present [
    ("location", some (symbolPlace s.location)),
    ("name", some (.str s.name)),
    ("kind", some (code s.kind.code)),
    ("data", s.data),
    ("tags", s.tags.map symbolTags),
    ("containerName", s.containerName.map .str)]

/-- Another place that a diagnostic has to do with. -/
def relatedInformation (r : RelatedInformation) : Json :=
  .obj [("location", location r.location), ("message", .str r.message)]

/-- A diagnostic. -/
def diagnostic (d : Diagnostic) : Json :=
  present [
    ("range", some (range d.range)),
    ("message", some (.str d.message)),
    ("severity", d.severity.map fun s => code s.code),
    ("code", d.code),
    ("codeDescription", d.codeDescription.map fun href => .obj [("href", .str href)]),
    ("source", d.source.map .str),
    ("tags", d.tags.map fun ts => .arr (ts.map fun t => code t.code)),
    ("relatedInformation", d.relatedInformation.map fun rs => .arr (rs.map relatedInformation)),
    ("data", d.data)]

/-- All diagnostics of a document. -/
def publishDiagnostics (p : PublishDiagnostics) : Json :=
  present [
    ("uri", some (.str p.uri)),
    ("diagnostics", some (.arr (p.diagnostics.map diagnostic))),
    ("version", p.version.map .int)]

/-- A message to the user or to the log. -/
def announcement (a : Announcement) : Json :=
  .obj [("type", code a.type.code), ("message", .str a.message)]

/-- The title of an answer offered to the user. -/
def actionItem (title : Text) : Json :=
  .obj [("title", .str title)]

/-- A question to the user. -/
def prompt (p : Prompt) : Json :=
  present [
    ("type", some (code p.type.code)),
    ("message", some (.str p.message)),
    ("actions", p.actions.map fun ts => .arr (ts.map actionItem))]

end SymbolAtlas.Lsp.Encode
