import SymbolAtlas.Failure
import SymbolAtlas.Invariant
import SymbolAtlas.Journal
import SymbolAtlas.Server.Installation

/-!
# The server process

The server runs as a child process that is talked to through two pipes, what it writes about its
errors going into the same pipe as its messages. Whatever happens, the child is stopped in the
end: asked to terminate, and killed if it does not.

* `Child` — a child process as far as its owner can see it, with how it takes being stopped;
* `ChildCall` — what an owner does to a child;
* `ServerProcess` — a child with the command that started it;
* `ServerProcess.halt`, `ServerProcess.finish`, `ServerProcess.stop` — stopping it;
* `ServerProcess.launch` — starting it.
-/

namespace SymbolAtlas

/-- One end of a pipe; closing it may fail. -/
structure Pipe where
  closeError : Option String := none
  deriving DecidableEq, Repr

/-- A child process. -/
structure Child where
  pid : Option Int := some 4242
  /-- The code with which the child ended, once it has. -/
  status : Option Int := none
  stdin : Option Pipe := some {}
  stdout : Option Pipe := some {}
  ignoresTerminate : Bool := false
  ignoresKill : Bool := false
  deriving DecidableEq, Repr

/-- What an owner does to a child. -/
inductive ChildCall
  | closeStdin
  | closeStdout
  | terminate
  | kill
  | wait (timeout : Text)
  deriving DecidableEq, Repr

namespace Child

/-- The code of a child that was asked to terminate. -/
def terminatedCode : Int := -15

/-- The code of a child that was killed. -/
def killedCode : Int := -9

/-- The child after it was asked to terminate. -/
def terminate (c : Child) : Child :=
  if c.ignoresTerminate then c else { c with status := some terminatedCode }

/-- The child after it was killed. -/
def kill (c : Child) : Child :=
  if c.ignoresKill then c else { c with status := some killedCode }

/-- The child after it ended by itself. -/
def exit (c : Child) (code : Int) : Child :=
  { c with status := some code }

/-- The number of the child, as a value. -/
def pidValue (c : Child) : Json :=
  c.pid.elim .null .int

/-- The code with which the child ended, as a value. -/
def statusValue (c : Child) : Json :=
  c.status.elim .null .int

end Child

/-- A child with the command that started it and the time it gets to end. -/
structure ServerProcess where
  child : Child
  command : List Text
  timeout : Timeout

/-- What was done to a child and reported about it, with a result. -/
structure Handled (α : Type) where
  result : α
  child : Child
  calls : List ChildCall
  entries : List Entry

namespace ServerProcess

/-- The owner of a child, which must have both pipes. -/
def own (child : Child) (command : List Text) (timeout : Json) :
    Except Fault ServerProcess :=
  if child.stdin.isNone || child.stdout.isNone then
    .error (.failure (Invariant.never "server process launched without pipes"
      [("command", .texts command)]))
  else
    match Timeout.require timeout "invalid terminate timeout" with
    | .error e => .error e
    | .ok t => .ok ⟨child, command, t⟩

/-- The journal entries about a pipe that is closed. -/
def closeEntries (pipe : Option Pipe) : List Entry :=
  match pipe.bind Pipe.closeError with
  | some text =>
    [{ level := .debug, event := "server.stream_close_failed", fields := [("error", .str text)] }]
  | none => []

/-- The calls that close a pipe, if there is one. -/
def closeCalls (pipe : Option Pipe) (call : ChildCall) : List ChildCall :=
  if pipe.isSome then [call] else []

/-- The entry about a child that is asked to terminate. -/
def terminatingEntry (p : ServerProcess) : Entry :=
  { level := .info, event := "server.terminating", fields := [("pid", p.child.pidValue)] }

/-- The entry about a child that is killed. -/
def killEntry (p : ServerProcess) : Entry :=
  { level := .warning, event := "server.kill",
    fields := [("pid", p.child.pidValue), ("timeout", p.timeout.value)] }

/-- The entry about a child that has ended. -/
def stoppedEntry (c : Child) : Entry :=
  { level := .info, event := "server.stopped",
    fields := [("pid", c.pidValue), ("returncode", c.statusValue)] }

/-- Ends the child: its input is closed and, if it still runs, it is asked to terminate and then
killed. A child that survives this is a fault. -/
def halt (p : ServerProcess) : Handled (Except Fault Unit) :=
  let c := p.child
  let closing := closeCalls c.stdin .closeStdin
  let closed := closeEntries c.stdin
  let wait := ChildCall.wait p.timeout.display
  if c.status.isSome then ⟨.ok (), c, closing, closed⟩
  else
    let first := c.terminate
    if first.status.isSome then
      ⟨.ok (), first, closing ++ [.terminate, wait], closed ++ [p.terminatingEntry]⟩
    else
      let second := first.kill
      let calls := closing ++ [.terminate, wait, .kill, wait]
      let entries := closed ++ [p.terminatingEntry, p.killEntry]
      if second.status.isSome then ⟨.ok (), second, calls, entries⟩
      else ⟨.error (.stray (.stillRunning p.command p.timeout.display)), second, calls, entries⟩

/-- Lets go of a child that has ended. -/
def finish (p : ServerProcess) : Handled (Option Int) :=
  let c := p.child
  ⟨c.status, c, closeCalls c.stdout .closeStdout, closeEntries c.stdout ++ [stoppedEntry c]⟩

/-- Ends the child and lets go of it. -/
def stop (p : ServerProcess) : Handled (Except Fault (Option Int)) :=
  let h := p.halt
  match h.result with
  | .error e => ⟨.error e, h.child, h.calls, h.entries⟩
  | .ok () =>
    let f := finish { p with child := h.child }
    ⟨.ok f.result, f.child, h.calls ++ f.calls, h.entries ++ f.entries⟩

/-! ## Starting -/

/-- What the system is asked to start. Both pipes are the owner's, and errors go into the pipe of
the messages. -/
structure Start where
  command : List Text
  workingDir : Text
  pipesInput : Bool := true
  pipesOutput : Bool := true
  mergesErrors : Bool := true
  deriving DecidableEq, Repr

/-- The command that starts an installed server. -/
def commandFor (i : Installation) (dataDir : Path) (java : Text) : List Text :=
  [java,
    "-Declipse.application=org.eclipse.jdt.ls.core.id1",
    "-Dosgi.bundles.defaultStartLevel=4",
    "-Declipse.product=org.eclipse.jdt.ls.core.product",
    "-Xmx1G",
    "-jar", i.launcher.text,
    "-configuration", i.configDir.text,
    "-data", dataDir.text]

/-- What is asked of the system to start the server for a workspace. -/
def startFor (i : Installation) (workspace : Path) (dataDir : Option Path) (java : Text) :
    Start :=
  { command := commandFor i (dataDir.getD workspace) java, workingDir := workspace.text }

/-- The time that a server gets to end. -/
def terminateTimeout : Json := .float (.ofDecimal false 5 0)

/-- The process that `spawn` starts and whatever else it gives, or why the process does not start,
with the journal entries about it. -/
def launch {α : Type} (spawn : Start → Except String (Child × α)) (start : Start)
    (java : Text) : Except Fault (ServerProcess × α) × List Entry :=
  let launching : Entry :=
    { level := .info, event := "server.launching", fields := [("command", .texts start.command)] }
  match spawn start with
  | .error cause =>
    (.error (.failure (.notStarted java cause)),
      [launching, { level := .error, event := "server.launch_failed",
                    fields := [("executable", .str java), ("error", .str cause)] }])
  | .ok (child, more) =>
    ((own child start.command terminateTimeout).map fun p => (p, more),
      [launching, { level := .info, event := "server.launched",
                    fields := [("pid", child.pidValue)] }])

end ServerProcess

end SymbolAtlas
