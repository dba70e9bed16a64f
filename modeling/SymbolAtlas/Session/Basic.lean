import SymbolAtlas.Disk.Access
import SymbolAtlas.Invariant
import SymbolAtlas.Session.Peer
import SymbolAtlas.Symbols.Answer

/-!
# Sessions

A session with a server: a handshake, then documents that are opened, then queries. Each stage
must be done before the next may begin. Once the handshake is done the workspace can be searched;
questions about documents need at least one open document. Any number of documents may be open. A
failure closes the session; a fault that no stage foresees leaves it where it is.

* `TextDocument` — an open document;
* `Session` — how far a session has come and which documents are open;
* `SessionM` — steps of a session, which may end in a fault;
* `Session.handshake`, `Session.openDocument`, `Session.documentSymbols`, `Session.references`,
  `Session.workspaceSymbols`, `Session.close` — the steps.
-/

namespace SymbolAtlas

open Lsp

/-- An open document with the text that the server was sent. -/
structure TextDocument where
  uri : Text
  languageId : Text
  version : Int
  text : String
  deriving DecidableEq, Repr

/-- How far a session has come. -/
structure Session where
  timeout : Timeout
  phase : Phase := .created
  /-- What the server said it can do. -/
  capabilities : Json := .null
  /-- The document that was opened last. -/
  document : Option TextDocument := none
  /-- The open documents by their addresses, in the order in which they were opened. -/
  documents : Fields Text TextDocument := []

/-- A session and its other side. -/
structure Talk (τ : Type) where
  session : Session
  peer : τ

/-- Steps of a session. -/
abbrev SessionM (τ α : Type) := ExceptT Fault (StateM (Talk τ)) α

namespace Session

/-- A new session; its timeout must be positive. -/
def new (timeout : Json) : Except Fault Session :=
  (Timeout.require timeout "invalid request timeout").map fun t => { timeout := t }

/-- The version of every document: texts are sent once and never changed. -/
def documentVersion : Int := 1

variable {τ : Type} [Peer τ] {α : Type}

/-! ## Parts of steps -/

/-- The session as it is. -/
def current : SessionM τ Session :=
  return (← get).session

/-- Changes the session. -/
def update (f : Session → Session) : SessionM τ Unit :=
  modify fun t => { t with session := f t.session }

/-- Moves to a phase. -/
def enter (phase : Phase) : SessionM τ Unit :=
  update fun s => { s with phase := phase }

/-- Makes a journal entry. -/
def note (level : Level) (event : String) (fields : Json.Object) : SessionM τ Unit :=
  modify fun t =>
    { t with peer := Peer.record { level := level, event := event, fields := fields } t.peer }

/-- Ends the step with a failure. -/
def failWith (f : Failure) : SessionM τ α :=
  throw (.failure f)

/-- The step goes on only in one of the expected phases. -/
def expect (expected : List Phase) (operation : String) : SessionM τ Unit := do
  let s ← current
  if s.phase ∈ expected then pure ()
  else failWith (.wrongPhase operation s.phase expected)

/-- Closes the session if the step ends in a failure. -/
def closing (step : SessionM τ α) : SessionM τ α :=
  tryCatch step fun fault => do
    match fault with
    | .failure _ => enter .closed
    | .stray _ => pure ()
    throw fault

/-- Sends a request and waits for what comes of it. -/
def ask (call : Call) : SessionM τ Reply :=
  modifyGet fun t =>
    let (reply, peer) := Peer.request call t.peer
    (reply, { t with peer := peer })

/-- Sends a notification. -/
def tell (call : Call) : SessionM τ Unit := do
  let outcome ← modifyGet fun t =>
    let (outcome, peer) := Peer.notify call t.peer
    (outcome, { t with peer := peer })
  match outcome with
  | .ok () => pure ()
  | .error fault => throw fault

/-- The answer in a reply. What the lack of one and an error amount to is up to the request. -/
def await (reply : Reply) (timedOut : Text → Failure) (rejected : Refusal → Failure) :
    SessionM τ Json := do
  match reply with
  | .result v => pure v
  | .refused r => failWith (rejected r)
  | .lost l => failWith (.lost l)
  | .raised kind text => throw (.stray (.raised kind text))
  | .silent =>
    let s ← current
    match s.timeout.wait with
    | .ok () => failWith (timedOut s.timeout.display)
    | .error e => throw (.stray e)

/-- The answer to a query. -/
def query (call : Call) (subject : Subject) : SessionM τ Json := do
  await (← ask call) (.queryTimedOut subject) (.queryRefused subject)

/-- The result of reading an answer. -/
def accept (read : Except Failure α) : SessionM τ α :=
  match read with
  | .ok a => pure a
  | .error e => failWith e

/-- The absolute path that a path leads to. -/
def resolve (disk : Disk) (p : Path) : SessionM τ Path :=
  match disk.resolve p with
  | .ok q => pure q
  | .error e => throw (.stray (.ofResolve e))

/-! ## Steps -/

/-- What the client says about itself when the workspace is at a path. -/
def clientInfo (processId : Int) (root : Path) : ClientInfo :=
  { processId := processId, rootUri := root.uri,
    rootName := if root.name.isEmpty then Text.ofString root.uri else root.name }

/-- The handshake for the workspace at `root`, with the server's answer. -/
def handshake (disk : Disk) (processId : Int) (root : Path) : SessionM τ Json := do
  expect [.created] "initialize"
  enter .initializing
  let root ← resolve disk root
  note .info "session.initializing" [("root_uri", .str root.uri)]
  let answer ← closing do
    let reply ← ask (Call.handshake (clientInfo processId root))
    let answer ← await reply .handshakeTimedOut .handshakeRejected
    tell Call.initialized
    pure answer
  update fun s =>
    { s with capabilities := (answer.field? "capabilities").getD .null, phase := .initialized }
  note .info "session.initialized" [("root_uri", .str root.uri)]
  return answer

/-- The text of a document. -/
def readDocument (disk : Disk) (path : Path) : SessionM τ String :=
  match disk.readText path with
  | .ok text => pure text
  | .error (.access .nul) => throw (.stray .nulInPath)
  | .error (.access .notEncodable) => throw (.stray .notEncodable)
  | .error (.access e) => closing (failWith (.documentUnreadable path (e.message path.text)))
  | .error .notUtf8 => closing (failWith (.documentUnreadable path notUtf8Message))

/-- Opens a document. One that is open already is not sent again; it becomes the one that was
opened last. -/
def openDocument (disk : Disk) (path : Path) (languageId : Text) :
    SessionM τ TextDocument := do
  expect Phase.ready "open a document"
  let text ← readDocument disk path
  let uri : Text := (← resolve disk path).uri
  match Fields.get? (← current).documents uri with
  | some document =>
    note .debug "session.document_already_open" [("uri", .str uri)]
    update fun s => { s with document := some document }
    return document
  | none =>
    let document : TextDocument :=
      { uri := uri, languageId := languageId, version := documentVersion, text := text }
    closing (tell (Call.didOpen uri languageId documentVersion text))
    update fun s =>
      { s with documents := Fields.put s.documents uri document, document := some document,
               phase := .documentOpen }
    note .info "session.document_opened" [("uri", .str uri), ("chars", .int text.length)]
    return document

/-- The document that is asked about: the given one, or the one that was opened last. -/
def targetOf (document : Option TextDocument) : SessionM τ TextDocument := do
  let s ← current
  match document.or s.document with
  | some d => pure d
  | none =>
    failWith (Invariant.never "document open without a document" [("state", .str s.phase.label)])

/-- Asks for the symbols of a document. -/
def requestSymbols (uri : Text) : SessionM τ (List SymbolNode) := do
  note .info "symbols.requesting" [("uri", .str uri)]
  let answer ← query (Call.documentSymbol uri) (.documentSymbols uri)
  let nodes ← accept (Answer.documentSymbols uri answer)
  note .info "symbols.received"
    [("uri", .str uri), ("roots", .int nodes.length), ("total", .int (SymbolNode.count nodes))]
  return nodes

/-- The symbols of a document, or of the one that was opened last. -/
def documentSymbols (document : Option TextDocument) : SessionM τ (List SymbolNode) := do
  expect [.documentOpen] "request document symbols"
  let target ← targetOf document
  if Fields.has (← current).documents target.uri then closing (requestSymbols target.uri)
  else failWith (.symbolsOfUnopened target.uri)

/-- Asks for the places that refer to what stands at a position. -/
def requestReferences (uri : Text) (p : Position) : SessionM τ (List Location) := do
  let subject : Subject := .references uri p.line p.character
  let answer ← query (Call.references uri p false) subject
  let places ← accept (Answer.locations subject.request answer)
  note .debug "symbols.references"
    [("uri", .str uri), ("line", .int p.line), ("total", .int places.length)]
  return places

/-- The places that refer to what stands at a position of an open document. -/
def references (uri : Text) (p : Position) : SessionM τ (List Location) := do
  expect [.documentOpen] "request references"
  if Fields.has (← current).documents uri then closing (requestReferences uri p)
  else failWith (.referencesInUnopened uri)

/-- Asks for the symbols that match a query. -/
def requestMatches (text : String) : SessionM τ (List SymbolNode) := do
  note .info "symbols.searching" [("query", .str text)]
  let answer ← query (Call.workspaceSymbol text) (.workspaceSymbols text)
  let nodes ← accept (Answer.workspaceSymbols answer)
  note .info "symbols.found" [("query", .str text), ("total", .int nodes.length)]
  return nodes

/-- The symbols of the workspace that match a query. -/
def workspaceSymbols (text : String) : SessionM τ (List SymbolNode) := do
  expect Phase.ready "search workspace symbols"
  closing (requestMatches text)

/-! ## The end -/

/-- The journal entry about a server that did not take leave. -/
def noteUnfinished (cause : Text) : SessionM τ Unit :=
  note .warning "session.shutdown_failed" [("error", .str cause)]

/-- Lets the server go after it has agreed. -/
def sendExit : SessionM τ Unit :=
  tryCatch (do tell Call.exit; note .info "session.closed" [("graceful", .bool true)])
    fun fault => if fault.isKind .transportClosed then noteUnfinished fault.message else throw fault

/-- Asks the server to shut down, and lets it go if it agrees. What goes wrong on the way is put
into the journal. -/
def takeLeave : SessionM τ Unit := do
  match ← ask Call.shutdown with
  | .result _ => sendExit
  | .refused r => noteUnfinished (Failure.refusalMessage r)
  | .lost l => noteUnfinished l.message
  | .raised kind text => throw (.stray (.raised kind text))
  | .silent =>
    match (← current).timeout.wait with
    | .ok () => noteUnfinished ""
    | .error e => throw (.stray e)

/-- Closes the session. A server that has had its handshake and can still be reached is asked to
shut down. -/
def close : SessionM τ Unit := do
  let previous := (← current).phase
  enter .closed
  if previous ∈ Phase.ready then
    if Peer.isClosed (← get).peer then note .info "session.closed" [("graceful", .bool false)]
    else takeLeave

end Session

end SymbolAtlas
