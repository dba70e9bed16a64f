import SymbolAtlas.Journal
import SymbolAtlas.Rpc.CallTable
import SymbolAtlas.Rpc.Frame

/-!
# Connections

A client's end of a connection: it sends requests and notifications, and a listener handles what
arrives, in order. A response completes the request it belongs to; a request of the other side is
answered; a notification is handed on. When the listener stops, or the client closes the
connection, or a write fails, every pending request is lost, and nothing can be sent any more.

What arrives may come in portions of any size. The listener takes whatever it can from the bytes
that are there. Reading and writing take up a call for each level of a nested value, and only so
many may be under way at once: a message that is nested too deeply to be read closes the connection,
and one that is nested too deeply to be written ends whoever writes it, which for an answer is the
listener.

What happens is put into the journal. That this never fails, whatever is reported, is taken for
granted: the journal belongs to whoever runs the program, and it is handed identifiers of the other
side, such as that of an unknown response, as they came.

* `StreamFault` — how a stream or a handler fails;
* `Handlers` — what the owner of a connection does with what arrives;
* `Outcome` — how a request ended;
* `Depths` — how deeply messages may be nested;
* `Connection` — the state of a connection;
* `Connection.sendRequest`, `Connection.sendNotification`, `Connection.close` — the client's side;
* `Connection.dispatch`, `Connection.advance`, `Connection.listen` — the listener;
* `Connection.feed`, `Connection.finish`, `Connection.breakOff` — what happens to the stream.
-/

namespace SymbolAtlas

/-- How a stream or a handler fails. -/
inductive StreamFault
  /-- The stream is broken or was closed. -/
  | broken (text : String)
  /-- Something of another kind went wrong. -/
  | other (kind text : String)
  deriving DecidableEq, Repr

/-- The words of a fault. -/
def StreamFault.text : StreamFault → String
  | .broken text => text
  | .other _ text => text

/-- What a handler did: its result, what became of the owner, and the journal entries made. -/
structure Reaction (σ α : Type) where
  result : Except StreamFault α
  owner : σ
  entries : List Entry := []

/-- What the owner of a connection does with requests, notifications and console output. -/
structure Handlers (σ : Type) where
  request : Option (Text → Json → σ → Reaction σ Json) := none
  notification : Option (Text → Json → σ → Reaction σ Unit) := none
  output : Option (String → σ → Reaction σ Unit) := none

/-- How a request ended. -/
inductive Outcome
  | result (v : Json)
  | refused (r : Refusal)
  | lost (l : Loss)

/-- Whether somebody listens. -/
inductive Listener
  | idle | running | stopped
  deriving DecidableEq, Repr

/-- What follows the bytes that have arrived. -/
inductive Supply
  /-- More may follow. -/
  | open
  /-- Nothing more follows. -/
  | over
  /-- The stream fails. -/
  | failing (fault : StreamFault)
  deriving DecidableEq, Repr

/-- What has arrived and was not read yet. -/
structure Inbound where
  stage : Frame.Stage := .headers none
  bytes : List UInt8 := []
  supply : Supply := .open
  deriving DecidableEq, Repr

/-- The calls that are left for the levels of nested values, of the thousand that may be under way
at once. What the client sends by itself, and what it has to say in an answer, can always be
written. -/
structure Depths where
  /-- Where the listener reads a message. -/
  read : Nat
  /-- Where the listener writes an answer. -/
  answer : Nat
  /-- Where the client writes a message. -/
  send : Nat
  canAnswer : 4 ≤ answer
  canSend : 8 ≤ send
  deriving DecidableEq, Repr

/-- What is left where the program is all that runs. -/
def Depths.usual : Depths where
  read := 991
  answer := 988
  send := 985
  canAnswer := Nat.le_of_ble_eq_true rfl
  canSend := Nat.le_of_ble_eq_true rfl

/-- A client's end of a connection. -/
structure Connection (σ : Type) where
  name : String
  handlers : Handlers σ
  owner : σ
  depths : Depths := .usual
  calls : CallTable := {}
  /-- The requests that have ended, in the order in which they did. -/
  settled : List (Nat × Outcome) := []
  inbound : Inbound := {}
  listener : Listener := .idle
  /-- How the next write fails, if it does. -/
  writer : Option StreamFault := none
  /-- The messages that were written. -/
  sent : List Json := []
  journal : List Entry := []

namespace Connection

variable {σ : Type}

/-- The name of a connection that was given none. -/
def defaultName : String := "lsp"

/-- The code of an error response to a request that nobody handles. -/
def methodNotFound : Int := -32601

/-- The code of an error response to a request whose handling failed. -/
def internalError : Int := -32603

/-- Why the client closes a connection, unless it says so. -/
def closedByClient : String := "connection closed by client"

/-- How a request ended, once it has. -/
def outcome? (c : Connection σ) (id : Nat) : Option Outcome :=
  (c.settled.find? fun s => s.1 == id).map Prod.snd

/-- The connection with journal entries. -/
def recordAll (c : Connection σ) (es : List Entry) : Connection σ :=
  { c with journal := c.journal ++ es }

/-- The connection with a journal entry. -/
def record (c : Connection σ) (level : Level) (event : String) (fields : Json.Object) :
    Connection σ :=
  c.recordAll [{ level := level, event := event, fields := fields }]

/-- The closed connection, every pending request being lost. A connection that is closed already
stays as it is. -/
def shutdown (c : Connection σ) (reason : String) : Connection σ :=
  match c.calls.shut reason with
  | none => c
  | some (pending, calls) =>
    { c with
      calls := calls
      settled := c.settled ++ pending.map fun id => (id, Outcome.lost (.aborted id reason)) }.record
      .info "rpc.closed" [("connection", .str c.name), ("reason", .str reason),
        ("pending", .int pending.length)]

@[simp] theorem shutdown_listener (c : Connection σ) (reason : String) :
    (c.shutdown reason).listener = c.listener := by
  unfold shutdown
  split <;> rfl

@[simp] theorem shutdown_depths (c : Connection σ) (reason : String) :
    (c.shutdown reason).depths = c.depths := by
  unfold shutdown
  split <;> rfl

/-- The connection closed by the client. -/
def close (c : Connection σ) (reason : String) : Connection σ :=
  c.shutdown reason

/-! ## Sending -/

/-- The fault of a message that is nested too deeply to be written. -/
def tooDeep : StreamFault :=
  .other "RecursionError" "maximum recursion depth exceeded while encoding a JSON object"

/-- How writing a message fails, if it does: one that is nested too deeply or has no bytes is not
even tried. -/
def writeFault? (c : Connection σ) (depth : Nat) (message : Json) : Option StreamFault :=
  if depth < message.nesting then some tooDeep
  else if (Frame.encode? message).isNone then some (.broken notEncodableMessage)
  else c.writer

/-- How writing a message of the client's own fails, if it does. -/
def sendFault? (c : Connection σ) (message : Json) : Option StreamFault :=
  c.writeFault? c.depths.send message

/-- Writes a message, `depth` calls being left for what is in it. A stream that turns out to be
broken closes the connection. -/
def write (c : Connection σ) (depth : Nat) (message : Json) : Option StreamFault × Connection σ :=
  match c.writeFault? depth message with
  | none => (none, { c with sent := c.sent ++ [message] })
  | some (.broken text) => (some (.broken text), c.shutdown s!"write failed: {text}")
  | some (.other kind text) => (some (.other kind text), c)

/-- A write adds a message that has bytes, or finds the stream broken and closes the connection, or
fails in another way, after which the connection is as before. -/
theorem write_cases (c : Connection σ) (depth : Nat) (m : Json) :
    ((Frame.encode? m).isSome ∧ c.write depth m = (none, { c with sent := c.sent ++ [m] })) ∨
      (∃ text, c.write depth m = (some (.broken text), c.shutdown s!"write failed: {text}")) ∨
      ∃ kind text, c.write depth m = (some (.other kind text), c) := by
  unfold write
  cases h : c.writeFault? depth m with
  | none =>
    refine .inl ⟨?_, rfl⟩
    cases he : Frame.encode? m with
    | none =>
      unfold writeFault? at h
      split at h
      · cases h
      · simp [he] at h
    | some bytes => rfl
  | some fault =>
    cases fault with
    | broken text => exact .inr (.inl ⟨text, rfl⟩)
    | other kind text => exact .inr (.inr ⟨kind, text, rfl⟩)

@[simp] theorem write_listener (c : Connection σ) (depth : Nat) (m : Json) :
    (c.write depth m).2.listener = c.listener := by
  rcases c.write_cases depth m with ⟨-, h⟩ | ⟨text, h⟩ | ⟨kind, text, h⟩ <;> simp [h]

@[simp] theorem write_depths (c : Connection σ) (depth : Nat) (m : Json) :
    (c.write depth m).2.depths = c.depths := by
  rcases c.write_cases depth m with ⟨-, h⟩ | ⟨text, h⟩ | ⟨kind, text, h⟩ <;> simp [h]

/-- The field for parameters; `null` counts as none. -/
def paramsField (params : Option Json) : Json.Object :=
  match params with
  | none | some .null => []
  | some v => [("params", v)]

/-- The message of a request. -/
def requestMessage (id : Nat) (method : String) (params : Option Json) : Json :=
  .obj (("jsonrpc", .str "2.0") :: ("id", .int id) :: ("method", .str method) ::
    paramsField params)

/-- The message of a notification. -/
def notificationMessage (method : String) (params : Option Json) : Json :=
  .obj (("jsonrpc", .str "2.0") :: ("method", .str method) :: paramsField params)

/-- The failure to send something on a closed connection. -/
def cannotSend (c : Connection σ) (method : String) : Fault :=
  .failure (.lost (.cannotSend method c.calls.reason))

/-- Sends a request and gives its number. A write that fails loses the request, which is seen in
its outcome. -/
def sendRequest (c : Connection σ) (method : String) (params : Option Json) :
    Except Fault Nat × Connection σ :=
  match c.calls.register with
  | none => (.error (c.cannotSend method), c)
  | some (id, calls) =>
    let c := { c with calls := calls }.record .debug "rpc.request"
      [("method", .str method), ("id", .int id)]
    match c.write c.depths.send (requestMessage id method params) with
    | (some (.other kind text), c) => (.error (.stray (.raised kind text)), c)
    | (_, c) => (.ok id, c)

/-- Sends a notification. -/
def sendNotification (c : Connection σ) (method : String) (params : Option Json) :
    Except Fault Unit × Connection σ :=
  if c.calls.isClosed then (.error (c.cannotSend method), c)
  else
    let c := c.record .debug "rpc.notification" [("method", .str method)]
    match c.write c.depths.send (notificationMessage method params) with
    | (none, c) => (.ok (), c)
    | (some (.broken text), c) => (.error (.failure (.lost (.cannotWrite c.name text))), c)
    | (some (.other kind text), c) => (.error (.stray (.raised kind text)), c)

/-! ## Handling what arrives -/

/-- The field of a response that carries an error. -/
def errorField (code : Int) (message : Text) : Text × Json :=
  ("error", .obj [("code", .int code), ("message", .str message)])

/-- What a request of the other side is answered with. -/
def respond (c : Connection σ) (method : Text) (params : Json) :
    (Text × Json) × Connection σ :=
  match c.handlers.request with
  | none => (errorField methodNotFound ("Method not found: " ++ method), c)
  | some handle =>
    let r := handle method params c.owner
    let c := { c with owner := r.owner }.recordAll r.entries
    match r.result with
    | .ok v => (("result", v), c)
    | .error fault =>
      (errorField internalError fault.text, c.record .warning "rpc.request_handler_failed"
        [("method", .str method), ("error", .str fault.text)])

/-- Answers a request of the other side. -/
def answer (c : Connection σ) (id : Json) (method : Text) (params : Json) :
    Option StreamFault × Connection σ :=
  let (field, c) := c.respond method params
  match c.write c.depths.answer (.obj [("jsonrpc", .str "2.0"), ("id", id), field]) with
  | (some (.broken _), c) =>
    (none, c.record .debug "rpc.answer_dropped" [("method", .str method)])
  | (fault, c) => (fault, c)

/-- Hands a notification on. -/
def handOn (c : Connection σ) (method : Text) (params : Json) : Connection σ :=
  match c.handlers.notification with
  | none => c
  | some handle =>
    let r := handle method params c.owner
    let c := { c with owner := r.owner }.recordAll r.entries
    match r.result with
    | .ok () => c
    | .error fault => c.record .warning "rpc.notification_handler_failed"
        [("method", .str method), ("error", .str fault.text)]

/-- The error that a response states. -/
def refusal (error : Json.Object) : Refusal :=
  { code := match Json.fieldOrNull error "code" with
      | .int n => .number n
      | .bool b => .flag b
      | _ => .number internalError
    message := ((Fields.get? error "message").getD (.str "")).display
    data := Json.fieldOrNull error "data" }

/-- How the request ends that a response belongs to. An error counts as one if it is an object. -/
def outcomeOf (message : Json.Object) : Outcome :=
  match Fields.get? message "error" with
  | some (.obj error) => .refused (refusal error)
  | _ => .result (Json.fieldOrNull message "result")

/-- Completes the request that a response belongs to. -/
def resolve (c : Connection σ) (message : Json.Object) : Connection σ :=
  let id := Json.fieldOrNull message "id"
  match c.calls.take id with
  | none => c.record .warning "rpc.unknown_response" [("id", id)]
  | some (k, calls) =>
    { c with calls := calls, settled := c.settled ++ [(k, outcomeOf message)] }

/-- The names of the fields of an object, in ascending order. -/
def sortedNames (message : Json.Object) : List Text :=
  (Fields.names message).mergeSort Text.le

/-- Handles a message: what has a method is a request or a notification, anything else with an id
is a response. -/
def dispatch (c : Connection σ) (message : Json.Object) : Option StreamFault × Connection σ :=
  match Fields.get? message "method" with
  | some (.str method) =>
    let params := Json.fieldOrNull message "params"
    match Fields.get? message "id" with
    | some id => c.answer id method params
    | none => (none, c.handOn method params)
  | _ =>
    if Fields.has message "id" then (none, c.resolve message)
    else (none, c.record .warning "rpc.unrecognized_message"
      [("keys", .texts (sortedNames message))])

/-- Hands a line of console output on. -/
def hear (c : Connection σ) (line : String) : Option StreamFault × Connection σ :=
  match c.handlers.output with
  | none => (none, c)
  | some handle =>
    let r := handle line c.owner
    let c := { c with owner := r.owner }.recordAll r.entries
    match r.result with
    | .ok () => (none, c)
    | .error fault => (some fault, c)

/-! ## The listener -/

/-- The listener stops, which closes the connection. -/
def stop (c : Connection σ) (reason : String) : Connection σ :=
  { c.shutdown reason with listener := .stopped }

/-- The listener stops because of a fault. -/
def stopFor (c : Connection σ) : StreamFault → Connection σ
  | .broken text => c.stop s!"read failed: {text}"
  | .other kind text =>
    let reason := s!"listener failed: {kind}: {text}"
    (c.record .error "rpc.listener_failed"
      [("connection", .str c.name), ("error", .str reason)]).stop reason

/-- The listener stops if there was a fault. -/
def stopIf : Option StreamFault × Connection σ → Connection σ
  | (none, c) => c
  | (some fault, c) => c.stopFor fault

/-- The connection with the rest of the bytes still to be read. -/
def leave (c : Connection σ) (stage : Frame.Stage) (rest : List UInt8) : Connection σ :=
  { c with inbound := { c.inbound with stage := stage, bytes := rest } }

/-- Why the listener stops when the stream is over. -/
def serverClosed : String := "server closed the stream"

/-- How the listener reads. -/
def reader (c : Connection σ) : Frame.Reader :=
  ⟨.pipe, c.depths.read⟩

/-- One step of the listener; nothing if it has to wait for more bytes. -/
def advance (c : Connection σ) : Option (Connection σ) :=
  let i := c.inbound
  match Frame.step c.reader i.stage i.bytes (i.supply == .over) with
  | .waiting =>
    match i.supply with
    | .failing fault => some (c.stopFor fault)
    | _ => none
  | .ended => some (c.stop serverClosed)
  | .onward stage rest => some (c.leave stage rest)
  | .console text rest => some (stopIf ((c.leave (.headers none) rest).hear text))
  | .message m rest => some (stopIf ((c.leave (.headers none) rest).dispatch m))
  | .bad (.frame e) rest =>
    some ((c.leave (.headers none) rest).stop s!"protocol error: {e.message}")
  | .bad (.length e) rest =>
    some ((c.leave (.headers none) rest).stopFor (.other e.kind e.text))
  | .bad .longInteger rest =>
    some ((c.leave (.headers none) rest).stop s!"read failed: {longIntegerMessage}")

/-- Steps of the listener as long as it runs and need not wait. -/
def listenFor : Nat → Connection σ → Connection σ
  | 0, c => c
  | fuel + 1, c =>
    if c.listener = .running then
      match c.advance with
      | some c => listenFor fuel c
      | none => c
    else c

/-- The listener takes all it can. Each step takes a byte or is the last one. -/
def listen (c : Connection σ) : Connection σ :=
  listenFor (c.inbound.bytes.length + 1) c

/-- The listener starts, unless it did before. -/
def start (c : Connection σ) : Connection σ :=
  match c.listener with
  | .idle => { c with listener := .running }.listen
  | _ => c

/-- More bytes arrive. -/
def feed (c : Connection σ) (bytes : List UInt8) : Connection σ :=
  { c with inbound := { c.inbound with bytes := c.inbound.bytes ++ bytes } }.listen

/-- The stream is over. -/
def finish (c : Connection σ) : Connection σ :=
  { c with inbound := { c.inbound with supply := .over } }.listen

/-- The stream fails when its bytes are used up. -/
def breakOff (c : Connection σ) (fault : StreamFault) : Connection σ :=
  { c with inbound := { c.inbound with supply := .failing fault } }.listen

end Connection

end SymbolAtlas
