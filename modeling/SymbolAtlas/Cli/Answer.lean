import SymbolAtlas.Cli.Arguments
import SymbolAtlas.Json.Writer
import SymbolAtlas.Run.Queries

/-!
# Answering on the command line

What a command prints. Results go to the standard output; a failure is told in one message on the
error output, and the exit code is one. Neither is a terminal, so styles are left out. What is no
failure but a fault that nobody foresees ends the program with the same code and without a message.

* `CommandReport` — what a command prints, and how it ends;
* `Command.answer` — the answer to a command.
-/

namespace SymbolAtlas

/-- What a command prints, and how it ends. -/
structure CommandReport where
  exitCode : Nat := 0
  /-- The lines on the standard output. -/
  lines : List Text := []
  /-- The message on the error output. -/
  message : Option Text := none
  /-- The fault that nobody foresaw. -/
  stray : Option Stray := none
  journal : List Entry := []
  /-- What was left of the run, if there was one. -/
  trace : Trace := {}

namespace Command

/-- The journal entry about a command that failed. -/
def failedEntry (f : Failure) : Entry :=
  { level := .error, event := "symscan.failed",
    fields := [("error_type", .str (f.kind.label)), ("error", .str f.message)] }

/-- The journal entry about a command that was answered. -/
def doneEntry (fields : Json.Object) : Entry :=
  { level := .info, event := "symscan.done", fields := fields }

/-- The report of a command that ended in a fault. -/
def failed (trace : Trace) (fault : Fault) : CommandReport :=
  match fault with
  | .failure f =>
    { exitCode := 1, message := some f.message, trace := trace,
      journal := trace.journal ++ [failedEntry f] }
  | .stray s => { exitCode := 1, stray := some s, trace := trace, journal := trace.journal }

/-- The report of a run. -/
def reportOf {α : Type} (r : Run.Report α)
    (done : α → Json.Object) (lines : α → List Text) : CommandReport :=
  match r.result with
  | .error fault => failed r.trace fault
  | .ok a =>
    { lines := lines a, trace := r.trace, journal := r.trace.journal ++ [doneEntry (done a)] }

/-- The value of an override that is a path. -/
def pathValue (p : Option Path) : Toml.Value :=
  p.elim .absent fun p => .text p.text

/-- The settings that the options of a query override. -/
def overrides (o : QueryOptions) : Toml.Value.Table :=
  [(Settings.repoPath, pathValue o.repo), (Settings.serverHome, pathValue o.serverHome),
    (Settings.filePath, pathValue o.file),
    (Settings.timeoutSeconds, o.timeout.elim .absent .float)]

/-- The settings of a query. -/
def settingsOf (env : Environment) (o : QueryOptions) (requireFile : Bool) :
    Except Fault ScanSettings :=
  let source : Settings.Source :=
    { disk := env.disk, homes := env.homes, room := env.settingsRoom, config := o.config }
  Settings.load source (overrides o) requireFile

/-- The lines about the symbols of a file. -/
def symbolLines (settings : ScanSettings) (r : ScanResult) : List Text :=
  let target : Text := match settings.target with
    | .ok p => p.text
    | .error _ => []
  ("=== Symbols in " ++ target ++ " ===") :: SymbolNode.renderTree r.symbols

/-- The lines about the hits of a search. -/
def hitLines (r : SearchResult) : List Text :=
  Text.ofString "=== Search Results ===" :: SymbolNode.renderHits r.symbols

/-- The lines about the methods of a repository: one JSON document. -/
def chunkLines (r : ChunkResult) : List Text :=
  [(MethodChunk.wireAll r.chunks).renderIndented]

/-- The lines about an installed server. -/
def installationLines (i : Installation) : List Text :=
  ["launcher: " ++ i.launcher.text, "config: " ++ i.configDir.text, s!"platform: {i.platform}"]

/-- The number of elements, as a value. -/
def countOf {α : Type} (as : List α) : Json := .int as.length

/-- What a command comes to before anything is printed. -/
def outcome (env : Environment) : Command → CommandReport
  | .symbols o =>
    match settingsOf env o true with
    | .error fault => failed {} fault
    | .ok settings =>
      reportOf (Run.scan env settings)
        (fun r => [("uri", .str r.document.uri), ("roots", countOf r.symbols),
          ("events", countOf r.notices)])
        (symbolLines settings)
  | .chunks o =>
    match settingsOf env o false with
    | .error fault => failed {} fault
    | .ok settings =>
      reportOf (Run.chunks env settings)
        (fun r => [("files", countOf r.files), ("methods", countOf r.chunks)]) chunkLines
  | .search query o =>
    match settingsOf env o false with
    | .error fault => failed {} fault
    | .ok settings =>
      reportOf (Run.search env settings query)
        (fun r => [("query", .str query), ("matches", countOf r.symbols)]) hitLines
  | .locate home =>
    match Installation.locate env.disk env.homes home env.system env.machine with
    | (.error fault, es) => failed { journal := es } fault
    | (.ok i, es) => { lines := installationLines i, journal := es, trace := { journal := es } }

/-- Whether a line can be printed. -/
def isPrinted (line : Text) : Bool :=
  line.toChars?.isSome

/-- What comes of printing the lines of a report: at the first line without bytes it ends. -/
def print (r : CommandReport) : CommandReport :=
  if r.lines.all isPrinted then r
  else { r with exitCode := 1, lines := r.lines.takeWhile isPrinted, stray := some .notEncodable }

/-- The answer to a command. -/
def answer (env : Environment) (c : Command) : CommandReport :=
  print (outcome env c)

end Command

/-- A line without styles, surrogates being written as escapes. -/
def printedLine (line : Text) : String :=
  Text.escaped (Text.dropStyles line) ++ "\n"

/-- The text of the lines on the standard output. -/
def CommandReport.output (r : CommandReport) : String :=
  String.join (r.lines.map printedLine)

/-- The text on the error output, the journal not included. -/
def CommandReport.complaint (r : CommandReport) : String :=
  r.message.elim "" printedLine

end SymbolAtlas
