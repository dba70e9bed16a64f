import SymbolAtlas.Disk.Path
import SymbolAtlas.Fields
import SymbolAtlas.Number.Numeral

/-!
# Arguments

What is asked for on the command line. Options stand before the command or after it; each has a
long name and, unless it is a switch, takes the argument behind it or what is joined to it by an
equals sign. An option that is given twice counts the second time. After `--` nothing is an
option.

* `OptionTable`, `Arguments.split` — arguments told apart into options and others;
* `QueryOptions`, `Command`, `Invocation` — what is asked for;
* `Invocation.ofArguments?` — what a list of arguments asks for, if it asks for anything.
-/

namespace SymbolAtlas

/-- The options of a command, and whether each takes a value. -/
abbrev OptionTable := Fields String Bool

/-- Arguments told apart: the values of options, and what is no option. A switch that is given has
an empty value. -/
structure Arguments where
  values : Fields String String := []
  others : List String := []

namespace Arguments

/-- Whether an argument is written like an option. -/
def isOption (s : String) : Bool :=
  match s.toList with
  | '-' :: _ :: _ => true
  | _ => false

/-- The name in an argument that is written like an option, and the value joined to it. -/
def nameAndValue (s : String) : String × Option String :=
  match Text.cutAt '=' s.toList with
  | some (name, value) => (String.ofList name, some (String.ofList value))
  | none => (s, none)

/-- The arguments with a value of an option. -/
def set (a : Arguments) (name value : String) : Arguments :=
  { a with values := Fields.put a.values name value }

/-- The arguments with another one that is no option. -/
def add (a : Arguments) (s : String) : Arguments :=
  { a with others := a.others ++ [s] }

/-- Takes an option and, if need be, its value, and gives the arguments after it. -/
def takeOption (table : OptionTable) (a : Arguments) (s : String) (rest : List String) :
    Option (Arguments × List String) :=
  let (name, joined) := nameAndValue s
  match Fields.get? table name, joined, rest with
  | some true, some value, _ => some (a.set name value, rest)
  | some true, none, value :: rest => some (a.set name value, rest)
  | some true, none, [] => none
  | some false, none, _ => some (a.set name "", rest)
  | some false, some _, _ => none
  | none, _, _ => none

/-- Tells arguments apart. Where options may not be mixed with others, everything from the first
other on is left to the next command. -/
def splitFrom (table : OptionTable) (mixed : Bool) :
    Nat → Arguments → List String → Option Arguments
  | _, a, [] => some a
  | 0, _, _ :: _ => none
  | fuel + 1, a, s :: rest =>
    if s == "--" then some { a with others := a.others ++ rest }
    else if isOption s then
      match takeOption table a s rest with
      | some (a, rest) => splitFrom table mixed fuel a rest
      | none => none
    else if mixed then splitFrom table mixed fuel (a.add s) rest
    else some { a with others := s :: rest }

/-- Tells arguments apart, if every option is in the table and has its value. -/
def split (table : OptionTable) (mixed : Bool) (args : List String) : Option Arguments :=
  splitFrom table mixed args.length {} args

/-- The value of an option. -/
def value? (a : Arguments) (name : String) : Option String :=
  Fields.get? a.values name

/-- The path that an option gives, if it gives one; nothing if what it gives is none, because it
holds the character NUL. -/
def path? (a : Arguments) (name : String) : Option (Option Path) :=
  match a.value? name with
  | none => some none
  | some s => if s.toList.contains '\x00' then none else some (some (Path.parse s))

/-- The number that an option gives, if it gives one; nothing if what it gives is none. -/
def number? (a : Arguments) (name : String) : Option (Option Binary64) :=
  match a.value? name with
  | none => some none
  | some s => (Numeral.readBinary64? s).map some

end Arguments

/-- The options that the queries have in common. -/
structure QueryOptions where
  config : Option Path := none
  repo : Option Path := none
  serverHome : Option Path := none
  file : Option Path := none
  timeout : Option Binary64 := none

/-- What can be asked for. -/
inductive Command
  /-- The symbols of a file. -/
  | symbols (o : QueryOptions)
  /-- The methods of a repository. -/
  | chunks (o : QueryOptions)
  /-- The symbols that match a query. -/
  | search (query : String) (o : QueryOptions)
  /-- Where the server is installed. -/
  | locate (serverHome : Path)

/-- What is asked for, and how the journal is shown meanwhile. -/
structure Invocation where
  logLevel : String := "INFO"
  jsonLogs : Bool := false
  command : Command

namespace Invocation

/-- The options before the command. -/
def generalOptions : OptionTable :=
  [("--log-level", true), ("--json-logs", false)]

/-- The options of a query. -/
def queryOptions : OptionTable :=
  [("--config", true), ("--repo", true), ("--server-home", true), ("--timeout", true)]

/-- The options of a query about one file. -/
def fileOptions : OptionTable :=
  queryOptions ++ [("--file", true)]

/-- The options of the search for the server. -/
def locateOptions : OptionTable :=
  [("--server-home", true)]

/-- The options that a query was given. `config` is the file that the surroundings name. -/
def readOptions? (a : Arguments) (config : Option String) : Option QueryOptions := do
  let named ← a.path? "--config"
  let repo ← a.path? "--repo"
  let serverHome ← a.path? "--server-home"
  let file ← a.path? "--file"
  let timeout ← a.number? "--timeout"
  return { config := named.or (config.map Path.parse), repo := repo, serverHome := serverHome,
           file := file, timeout := timeout }

/-- The command with the given name. -/
def command? (name : String) (args : List String) (config : Option String) : Option Command :=
  match name with
  | "symbols" => do
    let a ← Arguments.split fileOptions true args
    let o ← readOptions? a config
    if a.others.isEmpty then some (.symbols o) else none
  | "chunks" => do
    let a ← Arguments.split queryOptions true args
    let o ← readOptions? a config
    if a.others.isEmpty then some (.chunks o) else none
  | "search" => do
    let a ← Arguments.split queryOptions true args
    let o ← readOptions? a config
    match a.others with
    | [query] => some (.search query o)
    | _ => none
  | "locate" => do
    let a ← Arguments.split locateOptions true args
    let home ← (← a.path? "--server-home")
    if a.others.isEmpty then some (.locate home) else none
  | _ => none

/-- What the arguments ask for. `config` is the file that the surroundings name; an empty name is
none. -/
def ofArguments? (args : List String) (config : Option String) : Option Invocation := do
  let a ← Arguments.split generalOptions false args
  match a.others with
  | [] => none
  | name :: rest =>
    let command ← command? name rest (config.filter fun s => !s.isEmpty)
    some { logLevel := (a.value? "--log-level").getD "INFO",
           jsonLogs := (a.value? "--json-logs").isSome, command := command }

end Invocation

end SymbolAtlas
