import SymbolAtlas.Server.Live
import SymbolAtlas.Session.Basic
import SymbolAtlas.Settings.Load

/-!
# Runs

A run finds the installed server, starts it, connects to it, has the handshake, does its queries
and takes everything down again, in that order and whatever happens in between: first the session
is closed, then the connection, then the child is stopped, and at last the listener is waited for.
The fault that ends a run is the one that the failing stage met, unless taking down meets another.

* `Environment` — what a run finds around it;
* `RunStage` — how far a run has come, as its failure tells;
* `RunM` — the queries of a run;
* `Trace` — what a run leaves behind;
* `Run.withSession` — a run around its queries.
-/

namespace SymbolAtlas

/-- What a run finds around it. -/
structure Environment where
  disk : Disk
  homes : Homes
  /-- The calls that are left for the search for source files. -/
  searchRoom : Nat := 985
  /-- The calls that are left for the values of the settings. -/
  settingsRoom : Settings.Room := .usual
  processId : Int
  /-- The name of the operating system. -/
  system : String
  /-- The name of the machine. -/
  machine : String
  /-- Starts a server, or says why it does not start. -/
  spawn : ServerProcess.Start → Except String (Child × Server)

/-- How far a run has come. -/
inductive RunStage
  | startup | openDocument | documentSymbols | references | workspaceSymbols
  deriving DecidableEq, Repr

/-- The name of a stage in the journal. -/
def RunStage.label : RunStage → String
  | .startup => "startup"
  | .openDocument => "open_document"
  | .documentSymbols => "document_symbols"
  | .references => "references"
  | .workspaceSymbols => "workspace_symbols"

/-- A fault and the stage in which it came up. -/
structure Interruption where
  stage : RunStage
  fault : Fault

/-- The queries of a run. -/
abbrev RunM (α : Type) := ExceptT Interruption (StateM (Talk LiveServer)) α

/-- A step of taking a run down. -/
inductive Teardown
  | sessionClosed | connectionClosed | childStopped | listenerAwaited
  deriving DecidableEq, Repr

/-- What a run leaves behind. -/
structure Trace where
  journal : List Entry := []
  /-- What the system was asked to start. -/
  starts : List ServerProcess.Start := []
  /-- What was done to the child. -/
  calls : List ChildCall := []
  teardown : List Teardown := []
  /-- The server and the connection to it as they were left. -/
  live : Option LiveServer := none
  /-- The session as it was left. -/
  session : Option Session := none

/-- What the sink has recorded. -/
def Trace.sink (t : Trace) : Sink :=
  match t.live with
  | some s => s.connection.owner
  | none => {}

namespace Run

variable {α : Type}

/-- A step of a session as part of a stage. -/
def during (stage : RunStage) (step : SessionM LiveServer α) : RunM α :=
  ExceptT.adapt (fun fault => ⟨stage, fault⟩) step

/-! ## Taking down -/

/-- A run that has only to be taken down: its result so far and what is left of it. -/
structure Closing (α : Type) where
  result : Except Interruption α
  /-- The stage that the run has reached. -/
  stage : RunStage
  trace : Trace

/-- The stage that a result was reached in, given the last stage of the run. -/
def stageOf (last : RunStage) : Except Interruption α → RunStage
  | .ok _ => last
  | .error i => i.stage

/-- A fault in taking down replaces the result. -/
def overrule (c : Closing α) (fault : Fault) : Closing α :=
  { c with result := .error ⟨c.stage, fault⟩ }

/-- A closing with a step that was taken. -/
def Closing.took (c : Closing α) (step : Teardown) : Closing α :=
  { c with trace := { c.trace with teardown := c.trace.teardown ++ [step] } }

/-- Closes the session and then the connection. The connection is left alone if closing the
session meets a fault. -/
def closeSession (last : RunStage) (result : Except Interruption α) (t : Talk LiveServer)
    (trace : Trace) : Closing α :=
  let stage := stageOf last result
  let (closed, t) := (Session.close : SessionM LiveServer Unit).run.run t
  let c : Closing α :=
    ({ result := result, stage := stage,
       trace := { trace with session := some t.session, live := some t.peer } } : Closing α).took
      .sessionClosed
  match closed with
  | .ok () =>
    ({ c with trace := { c.trace with live := some t.peer.closeConnection } } : Closing α).took
      .connectionClosed
  | .error fault => overrule c fault

/-- The server after its child was ended: its stream is over if the child is gone. -/
def afterHalt (s : LiveServer) (child : Child) : LiveServer :=
  let s := { s with child := child }
  if child.status.isSome then s.withConnection s.connection.finish else s

/-- Stops the child. -/
def stopChild (p : ServerProcess) (s : LiveServer) (c : Closing α) : Closing α :=
  let halted := ServerProcess.halt { p with child := s.child }
  let s := afterHalt (s.withConnection (s.connection.recordAll halted.entries)) halted.child
  let c := { c with trace := { c.trace with calls := c.trace.calls ++ halted.calls } }
  match halted.result with
  | .error fault =>
    (overrule { c with trace := { c.trace with live := some s } } fault).took .childStopped
  | .ok () =>
    let done := ServerProcess.finish { p with child := s.child }
    let s := s.withConnection (s.connection.recordAll done.entries)
    ({ c with trace := { c.trace with live := some s,
                                      calls := c.trace.calls ++ done.calls } } : Closing α).took
      .childStopped

/-- The entry about a listener that still runs. -/
def stillRunningEntry (c : Connection Sink) : Entry :=
  { level := .warning, event := "scan.listener_still_running",
    fields := [("connection", .str c.name)] }

/-- Whether the listener can be waited for, or why not. One that had ended before the child was
stopped is not waited for, but what is no time at all is none even then. -/
def canAwait (timeout : Json) (ended : Bool) : Except Stray Unit := do
  Timeout.isTime timeout
  if !ended then Timeout.canElapse timeout

/-- Waits for the listener, `ended` saying that it had ended before the child was stopped. -/
def awaitListener (timeout : Json) (ended : Bool) (s : LiveServer) (c : Closing α) : Closing α :=
  let c := c.took .listenerAwaited
  match canAwait timeout ended with
  | .error e => overrule c (.stray e)
  | .ok () =>
    if s.connection.listener = .running then
      let s := s.withConnection (s.connection.recordAll [stillRunningEntry s.connection])
      { c with trace := { c.trace with live := some s } }
    else c

/-- Stops the child and waits for the listener. -/
def takeDown (p : ServerProcess) (timeout : Json) (s : LiveServer) (c : Closing α) : Closing α :=
  let c := stopChild p s c
  awaitListener timeout (s.connection.listener == .stopped) (c.trace.live.getD s) c

/-! ## The run -/

/-- The handshake and the queries, and the end of the session. -/
def converse (env : Environment) (settings : ScanSettings) (last : RunStage)
    (queries : RunM α) (session : Session) (s : LiveServer) (trace : Trace) : Closing α :=
  let steps : RunM α := do
    let _ ← during .startup (Session.handshake env.disk env.processId settings.repoPath)
    queries
  let (result, t) := steps.run.run ⟨session, s⟩
  closeSession last result t trace

/-- A run with a server that was started. -/
def withServer (env : Environment) (settings : ScanSettings) (last : RunStage)
    (queries : RunM α) (p : ServerProcess) (server : Server) (trace : Trace) : Closing α :=
  let s := LiveServer.connect server p.child trace.journal
  let c := match Session.new settings.timeout with
    | .error fault =>
      { result := .error ⟨.startup, fault⟩, stage := .startup,
        trace := { trace with live := some s } }
    | .ok session => converse env settings last queries session s trace
  takeDown p settings.timeout (c.trace.live.getD s) c

/-- The entry about the search for the installed server. -/
def locatingEntry (settings : ScanSettings) : Entry :=
  { level := .info, event := "scan.locating",
    fields := [("server_home", .str settings.serverHome.text)] }

/-- A run that ends before there is a server. -/
def early (fault : Fault) (trace : Trace) : Closing α :=
  { result := .error ⟨.startup, fault⟩, stage := .startup, trace := trace }

/-- A run around its queries, `last` being the stage of the last of them. -/
def withSession (env : Environment) (settings : ScanSettings) (last : RunStage)
    (journal : List Entry) (queries : Installation → RunM α) : Closing α :=
  let journal := journal ++ [locatingEntry settings]
  match Installation.locate env.disk env.homes settings.serverHome env.system env.machine with
  | (.error fault, es) => early fault { journal := journal ++ es }
  | (.ok installation, es) =>
    let start := ServerProcess.startFor installation settings.repoPath settings.dataDir
      settings.java
    match ServerProcess.launch env.spawn start settings.java with
    | (.error fault, ls) => early fault { journal := journal ++ es ++ ls, starts := [start] }
    | (.ok (p, server), ls) =>
      withServer env settings last (queries installation) p server
        { journal := journal ++ es ++ ls, starts := [start] }

/-- The journal of a run that has been taken down. -/
def journalOf (t : Trace) : List Entry :=
  match t.live with
  | some s => s.connection.journal
  | none => t.journal

/-- The entry about a run that failed. -/
def failedEntry (i : Interruption) : Entry :=
  { level := .error, event := "scan.failed",
    fields := [("stage", .str i.stage.label), ("error", .str i.fault.message)] }

/-- What comes of a run. -/
structure Report (α : Type) where
  result : Except Fault α
  trace : Trace

/-- A run that failed before anything was done. -/
def refused (fault : Fault) : Report α :=
  { result := .error fault, trace := {} }

/-- What comes of a run that has been taken down. `finish` makes the result of what the queries
gave and of what the sink has recorded. -/
def conclude {β : Type} (finish : α → List Notice → β) (c : Closing α) : Report β :=
  let journal := journalOf c.trace
  match c.result with
  | .ok a =>
    { result := .ok (finish a c.trace.sink.notices), trace := { c.trace with journal := journal } }
  | .error i =>
    { result := .error i.fault, trace := { c.trace with journal := journal ++ [failedEntry i] } }

end Run

end SymbolAtlas
