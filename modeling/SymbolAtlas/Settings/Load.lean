import SymbolAtlas.Failure
import SymbolAtlas.Number.Numeral
import SymbolAtlas.Text.Classes
import SymbolAtlas.Toml.Document

/-!
# Loading settings

The settings of a run come from a TOML file and from overrides, which win. A file that is named
must exist; the usual one may be missing. What is needed and has no value is named in the failure,
the first such setting in a fixed order.

A setting has a dotted name. In a table it may stand under that name as a whole or, part by part,
in tables within tables; the whole name wins. A table is no value of its own when it is reached
part by part. Values of every kind are written out where a text is needed, which may fail.

The file that is asked about is named by a path that is taken below the repository, even if it is
written with slashes in front; only a path that already leads below the repository is left as it
is.

* `ScanSettings` — the settings of a run, `ScanSettings.target` being the file that is asked about;
* `Settings.lookup` — the value of a dotted name;
* `Settings.merge` — a table with another one put over it, as far as that one has values;
* `Settings.configFile`, `Settings.loadTable` — the file and the table in it;
* `Settings.load` — the settings;
* `resolveTarget` — the path of a file of a repository.
-/

namespace SymbolAtlas

/-- The settings of a run. -/
structure ScanSettings where
  repoPath : Path
  serverHome : Path
  filePath : Option Path
  /-- The time to wait for an answer, in seconds. -/
  timeout : Json
  java : Text := "java"
  dataDir : Option Path := none
  languageId : Text := "java"

namespace Settings

open Toml

/-- The names of the settings. -/
def repoPath : String := "repo.path"
/-- Where the language server is installed. -/
def serverHome : String := "jdtls.home"
/-- The file that is asked about. -/
def filePath : String := "file.path"
/-- The time to wait for an answer. -/
def timeoutSeconds : String := "timeout.seconds"
/-- The program that runs the language server. -/
def javaExecutable : String := "java.executable"
/-- Where the language server keeps its data. -/
def dataDir : String := "data.dir"
/-- The language that documents are opened with. -/
def languageId : String := "language.id"

/-- All names. -/
def names : List String :=
  [repoPath, serverHome, filePath, timeoutSeconds, javaExecutable, dataDir, languageId]

/-! ## Values by name -/

/-- The value at the end of the parts of a name, tables being values too. -/
def descend (v : Value) : List String → Value
  | [] => v
  | part :: parts =>
    match v with
    | .table fields =>
      match Fields.get? fields part with
      | some inner => descend inner parts
      | none => .absent
    | _ => .absent

/-- The parts of a dotted name. -/
def partsOf (name : String) : List String :=
  (Text.pieces '.' name.toList).map String.ofList

/-- The value of a dotted name. -/
def lookup (table : Value.Table) (name : String) : Value :=
  match Fields.get? table name with
  | some v => v
  | none =>
    match descend (.table table) (partsOf name) with
    | .table _ => .absent
    | v => v

/-- The table `lower` with the values of `upper` put over it; a value that is absent is not put
over anything. -/
def merge (upper lower : Value.Table) : Value.Table :=
  upper.foldl
    (fun merged (name, v) =>
      match v with
      | .absent => merged
      | v => Fields.put merged name v)
    lower

/-! ## The file -/

/-- How deeply values may be nested. Reading and writing them out takes up calls, and of the calls
that may be under way at once so many are left where it begins. -/
structure Room where
  /-- For the values of a document. -/
  document : Nat
  /-- For writing out the value of a setting. -/
  shown : String → Nat
  shown_pos : ∀ name, 0 < shown name

/-- What is left where the program is all that runs. -/
def Room.usual : Room where
  document := 960
  shown _ := 985
  shown_pos _ := Nat.succ_pos _

/-- What the settings are loaded from. -/
structure Source where
  disk : Disk
  homes : Homes
  room : Room := .usual
  /-- The file that was named, if one was. -/
  config : Option Path := none
  /-- The directory of the usual file, if it is not the working directory. -/
  root : Option Path := none

/-- The name of the usual file. -/
def defaultName : String := "symscan.toml"

/-- The file that the settings come from. -/
def configFile (s : Source) : Path :=
  match s.config with
  | some p => p
  | none => (s.root.getD ⟨.top, s.disk.workingDir⟩).child defaultName

/-- The table that the text of a file writes. -/
def parseTable (depth : Nat) (path : Path) (text : String) : Except Fault Value.Table :=
  match Toml.read depth text with
  | .ok table => .ok table
  | .error .longInteger => .error (.stray .longInteger)
  | .error .tooDeep => .error (.stray .tooDeep)
  | .error e => .error (.failure (.configInvalid path e.message))

/-- The table in a file, empty if there is no such file. -/
def readTable (disk : Disk) (depth : Nat) (path : Path) : Except Fault Value.Table :=
  match disk.readText path with
  | .ok text => parseTable depth path text
  | .error .notUtf8 => .error (.stray .notUtf8)
  | .error (.access .missing) => .ok []
  | .error (.access .nul) => .error (.stray .nulInPath)
  | .error (.access .notEncodable) => .error (.stray .notEncodable)
  | .error (.access e) => .error (.failure (.configUnreadable path (e.message path.text)))

/-- Whether there is a file at the path, which was named. -/
def mustExist (disk : Disk) (path : Path) : Except Fault Unit :=
  match disk.isFile path with
  | .ok true => .ok ()
  | .ok false => .error (.failure (.configNotFound path))
  | .error e => .error (.ofTooLong e)

/-- The table that the settings come from. A file that was named must exist. -/
def loadTable (s : Source) : Except Fault Value.Table := do
  let path := configFile s
  if s.config.isSome then mustExist s.disk path
  readTable s.disk s.room.document path

/-! ## The values -/

/-- The values of all settings in a table. -/
def flatten (table : Value.Table) : Value.Table :=
  names.map fun name => (name, lookup table name)

/-- The value under a name among flattened settings. -/
def valueOf (values : Value.Table) (name : String) : Value :=
  (Fields.get? values name).getD .absent

/-- Whether a value does not count as one: none at all, or a text of blanks. -/
def isBlankValue : Value → Bool
  | .absent => true
  | .text t => Text.isBlankText t
  | _ => false

/-- The value of a setting that must have one. -/
def require (values : Value.Table) (name : String) (path : Path) : Except Fault Value :=
  let v := valueOf values name
  if isBlankValue v then .error (.failure (.settingMissing name (some path))) else .ok v

/-- A value with its texts quoted, `room` calls being left. -/
def literalOf (room : Nat) (v : Value) : Except Fault String :=
  match v.literalError? room with
  | some e => .error (.stray (.ofLiteral e))
  | none => .ok v.literal

/-- A value as running text, `room` calls being left: texts and moments by themselves, other values
with their texts quoted. -/
def textOf (room : Nat) : Value → Except Fault Text
  | .text t => .ok t
  | .moment m => .ok m.display
  | v => (literalOf room v).map Text.ofString

/-- The path that a value writes. -/
def pathOf (room : Nat) (v : Value) : Except Fault Path :=
  (textOf room v).map Path.parse

/-- The path that a value writes, a tilde at its front being replaced. -/
def homePathOf (homes : Homes) (room : Nat) (v : Value) : Except Fault Path := do
  match (← pathOf room v).expandHome homes with
  | .ok p => pure p
  | .error e => throw (.stray (.ofHome e))

/-- A value as a number, if it is one: truth values are none, texts are read as numerals. -/
def numberOf (v : Value) : Except Fault (Option Binary64) :=
  match v with
  | .int n =>
    match Binary64.ofInt? n with
    | some x => .ok (some x)
    | none => .error (.stray .tooLarge)
  | .float x => .ok (some x)
  | .text t => .ok (t.toString?.bind Numeral.readBinary64?)
  | _ => .ok none

/-- A value as a time to wait. -/
def timeoutOf (room : Nat) (v : Value) : Except Fault Binary64 := do
  match ← numberOf v with
  | none => throw (.failure (.timeoutNotNumber (← literalOf room v)))
  | some x =>
    if x.isNonpositive then throw (.failure (.timeoutNotPositive (← literalOf room v))) else pure x

/-- The text of a value that counts as given, or else a default. -/
def givenText (room : Nat) (v : Value) (default : Text) : Except Fault Text :=
  if v.truthy then textOf room v else .ok default

/-- The path that a value writes, if the value counts as given. -/
def givenPath (read : Value → Except Fault Path) (v : Value) : Except Fault (Option Path) :=
  if v.truthy then some <$> read v else .ok none

/-- The settings with the given values, `path` being the file they came from; for writing out each
of them there is its own room. -/
def ofValues (homes : Homes) (room : String → Nat) (requireFile : Bool) (path : Path)
    (values : Value.Table) : Except Fault ScanSettings := do
  let repo ← homePathOf homes (room repoPath) (← require values repoPath path)
  let home ← homePathOf homes (room serverHome) (← require values serverHome path)
  let file ←
    if requireFile then some <$> (require values filePath path >>= pathOf (room filePath))
    else givenPath (pathOf (room filePath)) (valueOf values filePath)
  let timeout ← require values timeoutSeconds path >>= timeoutOf (room timeoutSeconds)
  let data ← givenPath (homePathOf homes (room dataDir)) (valueOf values dataDir)
  return {
    repoPath := repo
    serverHome := home
    filePath := file
    timeout := .float timeout
    java := ← givenText (room javaExecutable) (valueOf values javaExecutable) "java"
    dataDir := data
    languageId := ← givenText (room languageId) (valueOf values languageId) "java" }

/-- The settings from a file and the overrides. Where `requireFile` is not set, no file need be
named. -/
def load (s : Source) (overrides : Value.Table) (requireFile : Bool) :
    Except Fault ScanSettings := do
  let table ← loadTable s
  ofValues s.homes s.room.shown requireFile (configFile s) (merge overrides (flatten table))

end Settings

/-! ## The file that is asked about -/

/-- The text without the slashes and backslashes at its front. -/
def dropSlashes (t : Text) : Text :=
  t.dropWhile fun p => p = .char '/' || p = .char '\\'

/-- The path of a file named by `file` in the repository `repo`. -/
def resolveTarget (repo file : Path) : Path :=
  if file.isAbsolute && file.isBelow repo then file
  else repo.child (dropSlashes file.text)

/-- The path of the file that is asked about. -/
def ScanSettings.target (s : ScanSettings) : Except Fault Path :=
  match s.filePath with
  | some file => .ok (resolveTarget s.repoPath file)
  | none => .error (.failure (.settingMissing Settings.filePath none))

end SymbolAtlas
