import SymbolAtlas.Cli.Answer
import SymbolAtlas.Journal.Render

/-!
# The program

The command line around `Command.answer`. What the program may look at is handed in on the
standard input, one path a line: a path that ends in a slash is a directory, any other a file,
whose bytes are read. The journal goes to the error output.

Servers are started by whoever embeds the library, through `Environment.spawn`. The program itself
starts none, so that a query gets as far as the start of its server.
-/

namespace SymbolAtlas.Main

/-- The disk with a path of the listing. A file that cannot be read is left out. -/
def addPath (disk : Disk) (line : String) : IO Disk := do
  let p := Path.parse line
  let parts := disk.absoluteParts p
  if line.endsWith "/" then return { disk with tree := disk.tree.makeDir parts }
  try
    let bytes ← IO.FS.readBinFile line
    return { disk with tree := disk.tree.put (.file bytes.toList) parts }
  catch _ => return disk

/-- The disk with all paths of the listing that is left on the input. -/
partial def readListing (input : IO.FS.Stream) (disk : Disk) : IO Disk := do
  let line ← input.getLine
  if line.isEmpty then return disk
  let line := line.trimAsciiEnd.toString
  readListing input (← if line.isEmpty then pure disk else addPath disk line)

/-- Why no server is started. -/
def noServers : String := "this program starts no servers"

/-- What the program finds around it. -/
def environment : IO Environment := do
  let here := (← IO.getEnv "PWD").getD "/"
  let home := (← IO.getEnv "HOME").getD "/"
  let disk : Disk := ⟨Tree.empty.makeDir (Path.parse here).parts, (Path.parse here).parts⟩
  return {
    disk := ← readListing (← IO.getStdin) disk
    homes := { own := home }
    processId := 0
    system := (← IO.getEnv "OSTYPE").getD "linux"
    machine := (← IO.getEnv "HOSTTYPE").getD "x86_64"
    spawn := fun _ => .error noServers }

/-- Prints a report. -/
def print (i : Invocation) (r : CommandReport) : IO Unit := do
  let now := s!"{← IO.monoMsNow}ms"
  for e in r.journal do
    if e.passes (Threshold.ofName i.logLevel) then
      IO.eprintln (e.shown i.jsonLogs now).escaped
  IO.print r.output
  IO.eprint r.complaint
  match r.stray with
  | some s => IO.eprintln s.message.escaped
  | none => pure ()

/-- The words for arguments that ask for nothing. -/
def usage : String :=
  "usage: [--log-level LEVEL] [--json-logs] symbols|chunks|search|locate [OPTIONS]"

end SymbolAtlas.Main

open SymbolAtlas in
/-- Answers the command that the arguments ask for. -/
def main (args : List String) : IO UInt32 := do
  match Invocation.ofArguments? args (← IO.getEnv "SYMSCAN_CONFIG") with
  | none =>
    IO.eprintln Main.usage
    return 2
  | some i =>
    let r := i.command.answer (← Main.environment)
    Main.print i r
    return r.exitCode.toUInt32
