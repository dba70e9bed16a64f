import SymbolAtlas.Lsp.Decode
import SymbolAtlas.Rpc.Connection

/-!
# What a server reports

A sink records whatever a server pushes at its client and answers the server's questions with
neutral values. Nothing recorded here has an influence on what the client does.

* `Notice` — something that a server reported;
* `Sink` — the notices and the console output, with an optional listener;
* `Sink.handleNotification`, `Sink.handleRequest`, `Sink.handleOutput` — what is done with what
  arrives;
* `Sink.handlers` — all three for a connection.
-/

namespace SymbolAtlas

open Lsp

/-- Something that a server reported. -/
inductive Notice
  /-- The diagnostics of a document. -/
  | diagnostics (uri : Text) (items : List Diagnostic)
  /-- A message for the log. -/
  | logMessage (a : Announcement)
  /-- A message for the user. -/
  | showMessage (a : Announcement)
  /-- Anything for telemetry. -/
  | telemetry (payload : Json)
  /-- A question to the user, with the titles of the answers offered. -/
  | prompt (message : Text) (severity : MessageType) (titles : List Text)

/-- A record of what a server reports. -/
structure Sink where
  notices : List Notice := []
  output : List String := []
  /-- What is told about each notice, and may fail. What it does may depend on everything that it
  was told, the last of which is the new notice. -/
  listener : Option (List Notice → Option StreamFault) := none
  /-- What the listener was told. -/
  heard : List Notice := []

namespace Sink

/-- The level at which a message of the server is put into the journal. -/
def levelOf : MessageType → Level
  | .error => .error
  | .warning => .warning
  | .info => .info
  | .log | .debug => .debug

/-- Records a notice and tells the listener. -/
def note (s : Sink) (n : Notice) : Except StreamFault Unit × Sink :=
  let s := { s with notices := s.notices ++ [n] }
  match s.listener with
  | none => (.ok (), s)
  | some tell =>
    let s := { s with heard := s.heard ++ [n] }
    match tell s.heard with
    | none => (.ok (), s)
    | some fault => (.error fault, s)

/-- Records a notice and, unless the listener fails, makes journal entries. -/
def noteWith (s : Sink) (n : Notice) (entries : List Entry) : Reaction Sink Unit :=
  match s.note n with
  | (.ok (), s) => { result := .ok (), owner := s, entries := entries }
  | (.error fault, s) => { result := .error fault, owner := s }

/-- A diagnostic in the journal. -/
def diagnosticEntry (uri : Text) (d : Diagnostic) : Entry :=
  { level := .debug, event := "server.diagnostic",
    fields := [("uri", .str uri), ("line", .int d.range.start.line),
      ("severity", d.severity.elim .null fun s => .int s.code), ("message", .str d.message)] }

/-- The diagnostics of a document in the journal. -/
def diagnosticEntries (uri : Text) (ds : List Diagnostic) : List Entry :=
  { level := .info, event := "server.diagnostics",
    fields := [("uri", .str uri), ("count", .int ds.length)] } :: ds.map (diagnosticEntry uri)

/-- A message of the server in the journal. -/
def announcementEntry (event : String) (a : Announcement) : Entry :=
  { level := levelOf a.type, event := event, fields := [("message", .str a.message)] }

/-- A malformed notification is put into the journal and otherwise ignored. -/
def ignoreMalformed (s : Sink) (method : Text) (m : Malformed) : Reaction Sink Unit :=
  { result := .ok (), owner := s,
    entries := [{ level := .warning, event := "server.notification_malformed",
                  fields := [("method", .str method), ("error", .str m.message)] }] }

/-- Handles a notification of the server. -/
def handleNotification (method : Text) (params : Json) (s : Sink) : Reaction Sink Unit :=
  if method == "textDocument/publishDiagnostics" then
    match Decode.payload "PublishDiagnosticsParams" Decode.publishDiagnostics params with
    | .error m => s.ignoreMalformed method m
    | .ok p => s.noteWith (.diagnostics p.uri p.diagnostics) (diagnosticEntries p.uri p.diagnostics)
  else if method == "window/logMessage" then
    match Decode.payload "LogMessageParams" Decode.announcement params with
    | .error m => s.ignoreMalformed method m
    | .ok a => s.noteWith (.logMessage a) [announcementEntry "server.log" a]
  else if method == "window/showMessage" then
    match Decode.payload "ShowMessageParams" Decode.announcement params with
    | .error m => s.ignoreMalformed method m
    | .ok a => s.noteWith (.showMessage a) [announcementEntry "server.message" a]
  else if method == "telemetry/event" then
    s.noteWith (.telemetry params)
      [{ level := .debug, event := "server.telemetry", fields := [("payload", params)] }]
  else
    { result := .ok (), owner := s,
      entries := [{ level := .debug, event := "server.notification_ignored",
                    fields := [("method", .str method)] }] }

/-- The answer to a question for settings: `null` for each item asked about. -/
def configuration (params : Json) : Json :=
  match params.field? "items" with
  | some (.arr items) => .arr (items.map fun _ => .null)
  | _ => .arr []

/-- Handles a prompt, to which the answer is that no action was chosen. -/
def handlePrompt (params : Json) (s : Sink) : Reaction Sink Json :=
  match Decode.payload "ShowMessageRequestParams" Decode.prompt params with
  | .error m =>
    { result := .ok .null, owner := s,
      entries := [{ level := .warning, event := "server.prompt_malformed",
                    fields := [("error", .str m.message)] }] }
  | .ok p =>
    let titles := p.actions.getD []
    let r := s.noteWith (.prompt p.message p.type titles)
      [{ level := .info, event := "server.prompt",
         fields := [("message", .str p.message), ("actions", .texts titles)] }]
    { result := r.result.map fun () => .null, owner := r.owner, entries := r.entries }

/-- Handles a request of the server. -/
def handleRequest (method : Text) (params : Json) (s : Sink) : Reaction Sink Json :=
  if method == "window/showMessageRequest" then s.handlePrompt params
  else if method == "workspace/configuration" then
    { result := .ok (configuration params), owner := s }
  else
    { result := .ok .null, owner := s,
      entries := [{ level := .debug, event := "server.request_acknowledged",
                    fields := [("method", .str method)] }] }

/-- Handles a line of console output. -/
def handleOutput (line : String) (s : Sink) : Reaction Sink Unit :=
  { result := .ok (), owner := { s with output := s.output ++ [line] },
    entries := [{ level := .debug, event := "server.output", fields := [("line", .str line)] }] }

/-- What a sink does with all that arrives. -/
def handlers : Handlers Sink :=
  { request := some handleRequest, notification := some handleNotification,
    output := some handleOutput }

end Sink

end SymbolAtlas
