import SymbolAtlas.Disk.Pattern
import SymbolAtlas.Disk.Resolve
import SymbolAtlas.Json.Display
import SymbolAtlas.Session.Phase
import SymbolAtlas.Toml.Value

/-!
# Failures

What can go wrong in a run. Every stage has failures of its own, which belong to one family and
are reported by their message; nothing recovers from them locally. Faults that no stage foresees
pass through all stages unchanged.

* `Failure` — the causes that belong to the family;
* `Failure.Kind` — how the causes are classified, with `Failure.Kind.parent?` for the hierarchy;
* `Failure.message` — the words for a cause;
* `Stray` — the faults outside the family;
* `Fault` — either of the two.
-/

namespace SymbolAtlas

/-- The code of an error response: an integer, or a truth value that a server sent as one. -/
inductive ErrorCode
  | number (n : Int)
  | flag (b : Bool)
  deriving DecidableEq, Repr

/-- The code as the value that the server sent. -/
def ErrorCode.json : ErrorCode → Json
  | .number n => .int n
  | .flag b => .bool b

/-- An error response. -/
structure Refusal where
  code : ErrorCode
  message : Text
  data : Json

/-- How a connection turned out to be lost. -/
inductive Loss
  /-- A message was to be sent on a closed connection. -/
  | cannotSend (method reason : String)
  /-- A write failed. -/
  | cannotWrite (connection cause : String)
  /-- The connection was closed before a response came. -/
  | aborted (id : Nat) (reason : String)
  /-- A loss in words of its own. -/
  | stated (text : String)
  deriving DecidableEq, Repr

/-- The words for a loss. -/
def Loss.message : Loss → String
  | .cannotSend method reason =>
    let reason := if reason.isEmpty then "connection closed" else reason
    s!"Cannot send {method}: {reason}"
  | .cannotWrite connection cause => s!"Cannot write to {connection}: {cause}"
  | .aborted id reason => s!"Request {id} aborted: {reason}"
  | .stated text => text

/-- Why a framed message cannot be read. -/
inductive FrameError
  /-- A line among the headers is none. -/
  | unexpectedHeader (line : String)
  /-- A length is no positive integer. -/
  | badLength (value : String)
  /-- The body is no JSON text. -/
  | badBody (cause : String)
  /-- The body is nested too deeply. -/
  | tooDeep
  /-- The body is no object. -/
  | notObject
  deriving DecidableEq, Repr

/-- The words for a frame that cannot be read. -/
def FrameError.message : FrameError → String
  | .unexpectedHeader line => s!"Unexpected header line: {Text.quoted line}"
  | .badLength value => s!"Invalid Content-Length: {Text.quoted value}"
  | .badBody cause => s!"Invalid JSON body: {cause}"
  | .tooDeep => "JSON body nested too deeply"
  | .notObject => "Invalid LSP message payload"

/-- A payload that does not have the structure its method defines. -/
structure Malformed where
  typeName : String
  detail : String
  deriving DecidableEq, Repr

/-- The words for a malformed payload. -/
def Malformed.message (m : Malformed) : String :=
  s!"Malformed {m.typeName}: {m.detail}"

namespace Failure

/-- The classes of failures. -/
inductive Kind
  | general
  | unreachable
  | config
  | settingMissing
  | serverMissing
  | launcherMissing
  | launcherAmbiguous
  | configDirMissing
  | launch
  | transport
  | transportClosed
  | protocol
  | response
  | session
  | sessionState
  | handshake
  | documentRead
  | query
  | malformed
  deriving DecidableEq, Repr

/-- All classes. -/
def Kind.all : List Kind :=
  [.general, .unreachable, .config, .settingMissing, .serverMissing, .launcherMissing,
    .launcherAmbiguous, .configDirMissing, .launch, .transport, .transportClosed, .protocol,
    .response, .session, .sessionState, .handshake, .documentRead, .query, .malformed]

/-- The name of a class in the journal. -/
def Kind.label : Kind → String
  | .general => "SymscanError"
  | .unreachable => "NeverThrown"
  | .config => "ConfigError"
  | .settingMissing => "ConfigMissing"
  | .serverMissing => "ServerNotFound"
  | .launcherMissing => "LauncherArtifactMissing"
  | .launcherAmbiguous => "AmbiguousLauncherArtifact"
  | .configDirMissing => "ConfigDirMissing"
  | .launch => "LaunchError"
  | .transport => "TransportError"
  | .transportClosed => "TransportClosed"
  | .protocol => "ProtocolError"
  | .response => "ResponseError"
  | .session => "SessionError"
  | .sessionState => "SessionStateError"
  | .handshake => "InitializeFailed"
  | .documentRead => "DocumentReadError"
  | .query => "QueryError"
  | .malformed => "MalformedPayload"

/-- The class that a class is part of. -/
def Kind.parent? : Kind → Option Kind
  | .general => none
  | .unreachable | .config | .serverMissing | .launch | .transport | .response | .session
  | .malformed => some .general
  | .settingMissing => some .config
  | .launcherMissing | .launcherAmbiguous | .configDirMissing => some .serverMissing
  | .transportClosed | .protocol => some .transport
  | .sessionState | .handshake | .documentRead | .query => some .session

/-- The classes that a class is part of, nearest first. -/
def Kind.ancestors (k : Kind) : List Kind :=
  match k.parent? with
  | none => []
  | some p =>
    match p.parent? with
    | none => [p]
    | some q => [p, q]

end Failure

/-- What the answer to a query was about. -/
inductive Subject
  /-- The symbols of a document. -/
  | documentSymbols (uri : Text)
  /-- The symbols that match a query. -/
  | workspaceSymbols (query : String)
  /-- The places that refer to a position. -/
  | references (uri : Text) (line character : Nat)
  deriving DecidableEq, Repr

/-- How messages name the request. -/
def Subject.request : Subject → Text
  | .documentSymbols uri => "documentSymbol for " ++ uri
  | .workspaceSymbols query => s!"workspace/symbol for {Text.quoted query}"
  | .references uri line character => "references at " ++ uri ++ s!":{line}:{character}"

/-- What the elements of an answer should be. -/
inductive Item
  /-- A symbol of a document. -/
  | symbol (uri : Text)
  /-- A symbol of the workspace. -/
  | workspaceSymbol
  /-- A location among those that were asked for. -/
  | location (what : Text)
  deriving DecidableEq, Repr

/-- How messages name the whole answer. -/
def Item.answer : Item → Text
  | .symbol uri => "documentSymbol for " ++ uri
  | .workspaceSymbol => "workspace/symbol"
  | .location what => what

/-- How messages name one element of the answer. -/
def Item.element (item : Item) (index : Nat) : Text :=
  match item with
  | .symbol uri => s!"symbol #{index} for " ++ uri
  | .workspaceSymbol => s!"workspace symbol #{index}"
  | .location what => s!"location #{index} of " ++ what

/-- A failure of a stage. -/
inductive Failure
  /-- A failure of some class in words of its own. -/
  | stated (kind : Failure.Kind) (text : String)
  /-- A place that nothing should reach was reached. -/
  | unreachable (reason : String) (environment : Json.Object)
  /-- The configuration file is there but cannot be read. -/
  | configUnreadable (path : Path) (cause : String)
  /-- The configuration file breaks its grammar. -/
  | configInvalid (path : Path) (cause : String)
  /-- A configuration file that was named does not exist. -/
  | configNotFound (path : Path)
  /-- The timeout is no number. -/
  | timeoutNotNumber (shown : String)
  /-- The timeout is a number, but not a positive one. -/
  | timeoutNotPositive (shown : String)
  /-- A setting that is needed has no value. -/
  | settingMissing (key : String) (source : Option Path)
  /-- There is no launcher in the directory. -/
  | launcherMissing (plugins : Path)
  /-- There are several launchers in the directory. -/
  | launcherAmbiguous (plugins : Path) (candidates : List Path)
  /-- The configuration directory of the platform is missing. -/
  | configDirMissing (dir : Path)
  /-- The server process could not be created. -/
  | notStarted (program : Text) (cause : String)
  /-- The connection is lost. -/
  | lost (loss : Loss)
  /-- The inbound stream holds something that is no message. -/
  | frame (cause : FrameError)
  /-- The server answered with an error. -/
  | refused (refusal : Refusal)
  /-- An operation does not fit the phase of the session. -/
  | wrongPhase (operation : String) (phase : Phase) (expected : List Phase)
  /-- Symbols were asked of a document that is not open. -/
  | symbolsOfUnopened (uri : Text)
  /-- References were asked in a document that is not open. -/
  | referencesInUnopened (uri : Text)
  /-- The handshake was not answered in time. -/
  | handshakeTimedOut (timeout : Text)
  /-- The server refused the handshake. -/
  | handshakeRejected (refusal : Refusal)
  /-- A document cannot be read. -/
  | documentUnreadable (path : Path) (cause : String)
  /-- A query was not answered in time. -/
  | queryTimedOut (subject : Subject) (timeout : Text)
  /-- The server refused a query. -/
  | queryRefused (subject : Subject) (refusal : Refusal)
  /-- The answer to a query is no list. -/
  | unexpectedAnswer (item : Item) (kind : Json.Kind)
  /-- An element of the answer is no object. -/
  | notAnObject (item : Item) (index : Nat)
  /-- An element of the answer does not decode. -/
  | malformedItem (item : Item) (index : Nat) (cause : Malformed)
  /-- A payload does not decode. -/
  | malformed (cause : Malformed)

namespace Failure

/-- The class of a failure. -/
def kind : Failure → Kind
  | .stated kind _ => kind
  | .unreachable .. => .unreachable
  | .configUnreadable .. | .configInvalid .. | .configNotFound _ | .timeoutNotNumber _
  | .timeoutNotPositive _ => .config
  | .settingMissing .. => .settingMissing
  | .launcherMissing _ => .launcherMissing
  | .launcherAmbiguous .. => .launcherAmbiguous
  | .configDirMissing _ => .configDirMissing
  | .notStarted .. => .launch
  | .lost _ => .transportClosed
  | .frame _ => .protocol
  | .refused _ => .response
  | .wrongPhase .. | .symbolsOfUnopened _ | .referencesInUnopened _ => .sessionState
  | .handshakeTimedOut _ | .handshakeRejected _ => .handshake
  | .documentUnreadable .. => .documentRead
  | .queryTimedOut .. | .queryRefused .. | .unexpectedAnswer .. | .notAnObject ..
  | .malformedItem .. => .query
  | .malformed _ => .malformed

/-- The words for an error response. -/
def refusalMessage (r : Refusal) : Text :=
  s!"LSP error {r.code.json.literal}: " ++ r.message

/-- The words for a failure. -/
def message : Failure → Text
  | .stated _ text => text
  | .unreachable reason _ => reason
  | .configUnreadable path cause => "Cannot read config file " ++ path.text ++ s!": {cause}"
  | .configInvalid path cause => "Invalid config file " ++ path.text ++ s!": {cause}"
  | .configNotFound path => "Config file not found: " ++ path.text
  | .timeoutNotNumber shown => s!"timeout.seconds must be a number, got {shown}"
  | .timeoutNotPositive shown => s!"timeout.seconds must be positive, got {shown}"
  | .settingMissing key source =>
    let place : Text := match source with
      | some path => " in " ++ path.text
      | none => ""
    s!"Missing required setting {Text.quoted key}" ++ place
  | .launcherMissing plugins => "Cannot find JDT LS launcher JAR in: " ++ plugins.text
  | .launcherAmbiguous plugins candidates =>
    let names := Text.joinPieces (", " : Text) (candidates.map Path.name)
    s!"Found {candidates.length} launcher JARs in " ++ plugins.text ++ ": " ++ names
  | .configDirMissing dir => "Cannot find config dir: " ++ dir.text
  | .notStarted program cause => "Failed to start " ++ program ++ s!": {cause}"
  | .lost loss => loss.message
  | .frame cause => cause.message
  | .refused r => refusalMessage r
  | .wrongPhase operation phase expected =>
    let allowed := Text.join " or " (expected.map Phase.label)
    s!"Cannot {operation} in state {phase.label}; expected {allowed}"
  | .symbolsOfUnopened uri => "Cannot request symbols of " ++ uri ++ "; it was never opened"
  | .referencesInUnopened uri => "Cannot request references in " ++ uri ++ "; it was never opened"
  | .handshakeTimedOut timeout => "initialize timed out after " ++ timeout ++ "s"
  | .handshakeRejected r => "initialize rejected by server: " ++ refusalMessage r
  | .documentUnreadable path cause => "Cannot read " ++ path.text ++ s!": {cause}"
  | .queryTimedOut subject timeout => subject.request ++ " timed out after " ++ timeout ++ "s"
  | .queryRefused subject r => subject.request ++ " failed: " ++ refusalMessage r
  | .unexpectedAnswer item kind => "Unexpected " ++ item.answer ++ s!" result: {kind.label}"
  | .notAnObject item index => s!"Item #{index} of " ++ item.answer ++ " is not an object"
  | .malformedItem item index cause =>
    "Malformed " ++ item.element index ++ s!": {cause.message}"
  | .malformed cause => cause.message

end Failure

/-- What a message says about an integer with too many digits. -/
def longIntegerMessage : String :=
  "Exceeds the limit (4300 digits) for integer string conversion"

/-- A fault outside the family of failures. -/
inductive Stray
  /-- A text that must be UTF-8 is not. -/
  | notUtf8
  /-- A text has no bytes, because a surrogate stands alone in it. -/
  | notEncodable
  /-- The home directory of a user is not known. -/
  | noHome
  /-- The links of a path lead back to themselves. -/
  | linkLoop
  /-- A path holds the character NUL. -/
  | nulInPath
  /-- A path is too long to be looked at. -/
  | pathTooLong (path : Path)
  /-- Something is nested too deeply to be followed to its end. -/
  | tooDeep
  /-- What the names of files are compared with is no pattern. -/
  | badPattern
  /-- An integer has too many digits to be written or read. -/
  | longInteger
  /-- An integer is too large for a floating-point number. -/
  | tooLarge
  /-- A child process did not end in time. -/
  | stillRunning (command : List Text) (timeout : Text)
  /-- A record was given fields that do not fit. -/
  | invalidFields
  /-- A time to wait is no number. -/
  | unusableTimeout
  /-- A time to wait is longer than can be waited. -/
  | endlessTimeout
  /-- A time to wait is the value that is not a number. -/
  | nanTimeout
  /-- A peer or a caller failed in a way and in words of its own. -/
  | raised (kind : String) (text : Text)
  deriving DecidableEq, Repr

/-- The words for a stray fault. -/
def Stray.message : Stray → Text
  | .notUtf8 => notUtf8Message
  | .notEncodable => notEncodableMessage
  | .noHome => "Could not determine home directory."
  | .linkLoop => "Symlink loop"
  | .nulInPath => AccessError.nul.message ""
  | .pathTooLong path => AccessError.nameTooLong.message path.text
  | .tooDeep => "maximum recursion depth exceeded"
  | .badPattern => "Invalid pattern: '**' can only be an entire path component"
  | .longInteger => longIntegerMessage
  | .tooLarge => "int too large to convert to float"
  | .stillRunning command timeout =>
    s!"Command '{Json.literal (Json.texts command)}' timed out after " ++ timeout ++ " seconds"
  | .invalidFields => "the fields do not fit the record"
  | .unusableTimeout => "the time to wait is not a number"
  | .endlessTimeout => "timeout value is too large"
  | .nanTimeout => "Invalid value NaN (not a number)"
  | .raised _ text => text

/-- What a path without a resolved form leads to. -/
def Stray.ofResolve : ResolveError → Stray
  | .loop => .linkLoop
  | .nul => .nulInPath
  | .notEncodable => .notEncodable
  | .tooDeep => .tooDeep

/-- What a home directory that cannot be found leads to. -/
def Stray.ofHome : HomeError → Stray
  | .unknownUser => .noHome
  | .nul => .nulInPath
  | .notEncodable => .notEncodable

/-- What a value that is not written out leads to. -/
def Stray.ofLiteral : Toml.LiteralError → Stray
  | .longInteger => .longInteger
  | .tooDeep => .tooDeep

/-- Whatever ends a stage early. -/
inductive Fault
  | failure (f : Failure)
  | stray (s : Stray)

/-- What a path that is too long leads to. -/
def Fault.ofTooLong (e : PathTooLong) : Fault :=
  .stray (.pathTooLong e.path)

/-- What a search that ends early leads to. -/
def Fault.ofSearch : SearchError → Fault
  | .tooLong e => .ofTooLong e
  | .tooDeep => .stray .tooDeep

/-- The words for a fault. -/
def Fault.message : Fault → Text
  | .failure f => f.message
  | .stray s => s.message

/-- Whether the fault is a failure of the class. -/
def Fault.isKind (f : Fault) (k : Failure.Kind) : Bool :=
  match f with
  | .failure f => f.kind == k
  | .stray _ => false

end SymbolAtlas
