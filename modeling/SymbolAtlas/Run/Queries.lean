import SymbolAtlas.Chunks.Callers
import SymbolAtlas.Chunks.Extract
import SymbolAtlas.Chunks.Sources
import SymbolAtlas.Run.Basic

/-!
# What runs ask

The three questions that a run can be about: the symbols of one file, all methods of a repository
with the calls between them, and the symbols that match a query.

* `Run.scan` — the symbols of a file;
* `Run.chunks` — the methods of a repository;
* `Run.search` — the symbols that match a query.
-/

namespace SymbolAtlas

/-- The symbols of a file. -/
structure ScanResult where
  installation : Installation
  document : TextDocument
  symbols : List SymbolNode
  notices : List Notice

/-- The methods of a repository. -/
structure ChunkResult where
  installation : Installation
  files : List Path
  chunks : List MethodChunk
  notices : List Notice

/-- The symbols that match a query. -/
structure SearchResult where
  installation : Installation
  query : String
  symbols : List SymbolNode
  notices : List Notice

namespace Run

open Session

/-! ## One file -/

/-- Opens a file and asks for its symbols. -/
def scanQueries (env : Environment) (settings : ScanSettings) (target : Path)
    (installation : Installation) : RunM (Installation × TextDocument × List SymbolNode) := do
  let document ← during .openDocument do
    note .info "scan.opening" [("path", .str target.text)]
    openDocument env.disk target settings.languageId
  let symbols ← during .documentSymbols (documentSymbols none)
  return (installation, document, symbols)

/-- The symbols of the file that the settings name. -/
def scan (env : Environment) (settings : ScanSettings) : Report ScanResult :=
  match settings.target with
  | .error fault => refused fault
  | .ok target =>
    conclude (fun (i, d, ns) notices => ⟨i, d, ns, notices⟩)
      (withSession env settings .documentSymbols [] (scanQueries env settings target))

/-! ## A repository -/

/-- Makes journal entries. -/
def noteAll (es : List Entry) : SessionM LiveServer Unit :=
  modify fun t => { t with peer := es.foldl (fun s e => Peer.record e s) t.peer }

/-- Opens a file and collects the methods in it. -/
def fileChunks (env : Environment) (settings : ScanSettings) (path : Path) :
    RunM (List MethodChunk) := do
  let document ← during .openDocument (openDocument env.disk path settings.languageId)
  during .documentSymbols do
    let nodes ← documentSymbols (some document)
    noteAll (MethodChunk.orphanEntries nodes document.text)
    return MethodChunk.extract nodes document.text

/-- Asks for the references to a method. -/
def referencesTo (c : MethodChunk) : SessionM LiveServer (List Lsp.Location) :=
  match c.location with
  | some { uri := uri, selection := some selection, .. } => references uri selection.start
  | _ =>
    failWith (Invariant.never "reference lookup without a selection range"
      [("method", .str c.qualifiedName)])

/-- The journal entry about a method whose references are not asked for. -/
def skipReferences (c : MethodChunk) : SessionM LiveServer Unit :=
  note .debug "chunks.references_skipped" [("method", .str c.qualifiedName)]

/-- Fills in callers and callees. -/
def linkChunks (cs : List MethodChunk) : SessionM LiveServer (List MethodChunk) := do
  let linked ← CallGraph.linkWith referencesTo skipReferences cs
  note .info "chunks.linked"
    [("methods", .int linked.length), ("edges", .int (CallGraph.edgeCount linked))]
  return linked

/-- Opens all files, collects the methods in them and fills in callers and callees. -/
def chunkQueries (env : Environment) (settings : ScanSettings) (files : List Path)
    (installation : Installation) : RunM (Installation × List MethodChunk) := do
  let found ← files.mapM (fileChunks env settings)
  let linked ← during .references (linkChunks found.flatten)
  return (installation, linked)

/-- The journal entry about the files of a repository. -/
def filesEntry (settings : ScanSettings) (files : List Path) : Entry :=
  { level := .info, event := "chunks.files",
    fields := [("repo", .str settings.repoPath.text), ("count", .int files.length)] }

/-- The methods of the repository that the settings name. -/
def chunks (env : Environment) (settings : ScanSettings) : Report ChunkResult :=
  match env.disk.sourceFiles env.searchRoom settings.repoPath sourceSuffix with
  | .error fault => refused fault
  | .ok files =>
    conclude (fun (i, cs) notices => ⟨i, files, cs, notices⟩)
      (withSession env settings .references [filesEntry settings files]
        (chunkQueries env settings files))

/-! ## A query -/

/-- Asks for the symbols that match a query. -/
def searchQueries (query : String) (installation : Installation) :
    RunM (Installation × List SymbolNode) := do
  let symbols ← during .workspaceSymbols (workspaceSymbols query)
  return (installation, symbols)

/-- The symbols of the workspace that match a query. -/
def search (env : Environment) (settings : ScanSettings) (query : String) :
    Report SearchResult :=
  conclude (fun (i, ns) notices => ⟨i, query, ns, notices⟩)
    (withSession env settings .workspaceSymbols [] (searchQueries query))

end Run

end SymbolAtlas
