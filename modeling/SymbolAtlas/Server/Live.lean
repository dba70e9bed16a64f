import SymbolAtlas.Rpc.Sink
import SymbolAtlas.Server.Child
import SymbolAtlas.Session.Peer

/-!
# Running servers

A server as a client meets it: what it does is settled by the messages that it has received. The
client's listener handles whatever the server has sent before the client goes on, so a request
that was not answered by then is one that nobody answers.

* `ServerAct`, `Server` — what a server does;
* `LiveServer` — a running server together with the client's connection to it;
* `LiveServer.connect` — the connection to a server that has just been started;
* the instance of `Peer` — a running server is what a session can talk to.
-/

namespace SymbolAtlas

/-- Something that a server does. -/
inductive ServerAct
  /-- It writes bytes. -/
  | emit (bytes : List UInt8)
  /-- It ends with a code, and its stream with it. -/
  | exit (code : Int)
  /-- It does not read any more, so that writing to it fails. -/
  | deafen (text : String)
  deriving DecidableEq, Repr

/-- A server, by what it does. -/
structure Server where
  /-- What it does when it is started. -/
  onStart : List ServerAct
  /-- What it does when a message comes, given those that came before. -/
  onMessage : List Json → Json → List ServerAct

/-- A running server together with the client's connection to it. -/
structure LiveServer where
  server : Server
  child : Child
  connection : Connection Sink
  /-- The requests and notifications that the server has received. -/
  received : List Json := []

namespace LiveServer

/-- The server does something, and the client's listener takes notice of what it writes. -/
def perform (s : LiveServer) (a : ServerAct) : LiveServer :=
  match a with
  | .emit bytes => { s with connection := s.connection.feed bytes }
  | .exit code => { s with child := s.child.exit code }
  | .deafen text => { s with connection := { s.connection with writer := some (.broken text) } }

/-- The stream of a server that has ended is over. -/
def settle (s : LiveServer) : LiveServer :=
  if s.child.status.isSome then { s with connection := s.connection.finish } else s

/-- The server does several things at once: where ending is one of them, it ends after all of
them. A server that had ended before does nothing. -/
def performAll (s : LiveServer) (acts : List ServerAct) : LiveServer :=
  if s.child.status.isSome then s else (acts.foldl perform s).settle

/-- The name of the connection to a server. -/
def connectionName : String := "jdtls"

/-- The connection to a server that has just been started, with the journal so far. -/
def connect (server : Server) (child : Child) (journal : List Entry) : LiveServer :=
  let connecting : Entry :=
    { level := .info, event := "transport.connecting", fields := [("pid", child.pidValue)] }
  let idle : LiveServer :=
    { server := server, child := child,
      connection := { name := connectionName, handlers := Sink.handlers, owner := {},
                      journal := journal ++ [connecting] } }
  let started := idle.performAll server.onStart
  { started with connection := started.connection.start }

/-- The server receives a message and does what it does then. -/
def receive (s : LiveServer) (message : Json) : LiveServer :=
  { s with received := s.received ++ [message] }.performAll (s.server.onMessage s.received message)

/-- The server receives the message that was written last, if writing it did not fail. -/
def afterWrite (s : LiveServer) (message : Json) : LiveServer :=
  match s.connection.sendFault? message with
  | none => s.receive message
  | some _ => s

/-- The server after a change of its connection. -/
def withConnection (s : LiveServer) (c : Connection Sink) : LiveServer :=
  { s with connection := c }

/-- What came of a request. -/
def replyTo (c : Connection Sink) (id : Nat) : Reply :=
  match c.outcome? id with
  | some (.result v) => .result v
  | some (.refused r) => .refused r
  | some (.lost l) => .lost l
  | none => .silent

/-- What comes of a request that could not be made. -/
def replyOfFault : Fault → Reply
  | .failure (.lost l) => .lost l
  | .failure f => .raised "" f.message
  | .stray (.raised kind text) => .raised kind text
  | .stray s => .raised "" s.message

/-- Sends a request and waits for what comes of it. -/
def request (call : Lsp.Call) (s : LiveServer) : Reply × LiveServer :=
  match s.connection.sendRequest call.method call.params with
  | (.error fault, c) => (replyOfFault fault, s.withConnection c)
  | (.ok id, c) =>
    let s := (s.withConnection c).afterWrite
      (Connection.requestMessage id call.method call.params)
    (replyTo s.connection id, s)

/-- Sends a notification. -/
def notify (call : Lsp.Call) (s : LiveServer) : Except Fault Unit × LiveServer :=
  match s.connection.sendNotification call.method call.params with
  | (.error fault, c) => (.error fault, s.withConnection c)
  | (.ok (), c) =>
    (.ok (), (s.withConnection c).afterWrite
      (Connection.notificationMessage call.method call.params))

instance : Peer LiveServer where
  request := request
  notify := notify
  isClosed s := s.connection.calls.isClosed
  record e s := s.withConnection (s.connection.recordAll [e])

/-- The connection closed by the client. -/
def closeConnection (s : LiveServer) : LiveServer :=
  s.withConnection (s.connection.close Connection.closedByClient)

end LiveServer

end SymbolAtlas
