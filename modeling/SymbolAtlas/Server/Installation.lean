import SymbolAtlas.Failure
import SymbolAtlas.Journal

/-!
# The installed server

Where the language server is installed: exactly one launcher among the plugins, and the
configuration directory for the platform, of which there may be one for ARM machines.

* `Platform.ofSystem` — the platform of an operating system;
* `Installation` — what is needed to start the server;
* `Installation.findLauncher`, `Installation.findConfigDir` — its parts;
* `Installation.locate` — the installation below a directory, with the journal entry about it.
-/

namespace SymbolAtlas

/-- The platforms that the server is made for. -/
inductive Platform
  | linux | mac | win
  deriving DecidableEq, Repr

/-- The name of a platform in the names of directories. -/
def Platform.label : Platform → String
  | .linux => "linux"
  | .mac => "mac"
  | .win => "win"

/-- The platform of an operating system. Its name is searched for `mac` and `darwin` first,
because the second of these holds `win`. Letters beyond ASCII have no part in these words. -/
def Platform.ofSystem (system : String) : Platform :=
  let name := Text.lowerAscii system
  if Text.hasText "mac" name || Text.hasText "darwin" name then .mac
  else if Text.hasText "win" name then .win
  else .linux

/-- What is needed to start the server. -/
structure Installation where
  root : Path
  pluginsDir : Path
  configDir : Path
  launcher : Path
  platform : String
  deriving DecidableEq, Repr

namespace Installation

/-- How the name of a launcher begins. -/
def launcherStart : String := "org.eclipse.equinox.launcher_"

/-- How the name of a launcher ends. -/
def launcherEnd : String := ".jar"

/-- The directory with the plugins. -/
def pluginsName : String := "plugins"

/-- Whether the name is that of a launcher. -/
def isLauncherName (name : Text) : Bool :=
  (Text.ofString launcherStart).isPrefixOf name && (Text.ofString launcherEnd).isSuffixOf name

/-- The launchers in a directory, in the order of their names; none if it is no directory. -/
def launchers (d : Disk) (plugins : Path) : Except PathTooLong (List Path) := do
  let names ← d.listNames plugins
  d.filesAmong ((names.filter isLauncherName).map plugins.below)

/-- The only launcher in a directory. -/
def findLauncher (d : Disk) (plugins : Path) : Except Fault Path :=
  match launchers d plugins with
  | .error e => .error (.ofTooLong e)
  | .ok [] => .error (.failure (.launcherMissing plugins))
  | .ok [p] => .ok p
  | .ok ps => .error (.failure (.launcherAmbiguous plugins ps))

/-- Whether a machine is an ARM one. -/
def isArm (machine : String) : Bool :=
  let name := Text.lowerAscii machine
  name == "arm64" || name == "aarch64"

/-- The names that the configuration directory may have, the preferred one first. -/
def configNames (platform machine : String) : List String :=
  let plain := s!"config_{platform}"
  if isArm machine then [s!"{plain}_arm", plain] else [plain]

/-- The first of the paths that names a directory. -/
def firstDir (d : Disk) : List Path → Except PathTooLong (Option Path)
  | [] => .ok none
  | p :: ps => do
    if ← d.isDir p then return some p
    firstDir d ps

/-- The configuration directory for a platform and a machine. -/
def findConfigDir (d : Disk) (root : Path) (platform machine : String) : Except Fault Path :=
  let candidates := (configNames platform machine).map fun (name : String) => root.child name
  match firstDir d candidates with
  | .error e => .error (.ofTooLong e)
  | .ok (some p) => .ok p
  | .ok none => .error (.failure (.configDirMissing (candidates.getLast?.getD root)))

/-- The installation below a directory that is resolved already. -/
def locateAt (d : Disk) (root : Path) (system machine : String) : Except Fault Installation := do
  let plugins := root.child pluginsName
  let launcher ← findLauncher d plugins
  let platform := (Platform.ofSystem system).label
  let configDir ← findConfigDir d root platform machine
  return ⟨root, plugins, configDir, launcher, platform⟩

/-- The directory that a path names, a tilde replaced and links followed. -/
def resolveRoot (d : Disk) (homes : Homes) (p : Path) : Except Stray Path := do
  let p ← (p.expandHome homes).mapError Stray.ofHome
  (d.resolve p).mapError Stray.ofResolve

/-- The journal entry about a located installation. -/
def locatedEntry (i : Installation) : Entry :=
  { level := .info, event := "server.located",
    fields := [("launcher", .str i.launcher.text), ("config_dir", .str i.configDir.text),
      ("platform", .str i.platform)] }

/-- The journal entry about an installation that was not found. -/
def missingEntry (root : Path) (e : Failure) : Entry :=
  { level := .error, event := "server.locate_failed",
    fields := [("root", .str root.text), ("error", .str e.message)] }

/-- The installation that a path names, with the journal entries about it. -/
def locate (d : Disk) (homes : Homes) (p : Path) (system machine : String) :
    Except Fault Installation × List Entry :=
  match resolveRoot d homes p with
  | .error s => (.error (.stray s), [])
  | .ok root =>
    match locateAt d root system machine with
    | .ok i => (.ok i, [i.locatedEntry])
    | .error (.failure e) => (.error (.failure e), [missingEntry root e])
    | .error (.stray e) => (.error (.stray e), [])

end Installation

end SymbolAtlas
