import SymbolAtlas.Proofs.Session.Endings

/-!
# What a session exchanges

A session on a line that is free to do anything: each request and each notification is passed on or
not, as an oracle says, and whatever the oracle likes comes of a request that is passed on. The line
keeps what was passed on. A run is any sequence of operations on a session and such a line.

* `Oracle`, `Line` — the line, with `Line.request_log` and `Line.notify_log_of_ok`;
* `Exchange` — something that was passed on;
* `Operation` — the operations of a session with all that they depend on, `Operation.performAll` to
  do several;
* `Step` — what one operation can do to a session and its line, with `Operation.step`.
-/

namespace SymbolAtlas

open Lsp

/-! ## Lines -/

/-- Why something is not passed on. -/
inductive Obstacle
  /-- The connection is lost. -/
  | lost (l : Loss)
  /-- It cannot be put on the line at all. -/
  | stray (s : Stray)

/-- The fault that a notification which is not passed on ends in. -/
def Obstacle.fault : Obstacle → Fault
  | .lost l => .failure (.lost l)
  | .stray s => .stray s

/-- What comes of a request that is not passed on. -/
def Obstacle.reply : Obstacle → Reply
  | .lost l => .lost l
  | .stray s => .raised "" s.message

/-- What becomes of a request. -/
inductive Fate
  /-- It is passed on, and this comes of it. -/
  | passed (reply : Reply)
  /-- It is not passed on. -/
  | dropped (o : Obstacle)

/-- What a line does with each message, given how many there were before. -/
structure Oracle where
  request : Nat → Call → Fate
  notification : Nat → Call → Option Obstacle
  isClosed : Nat → Bool

/-- Something that was passed on. -/
inductive Exchange
  /-- A request, and what came of it. -/
  | asked (call : Call) (reply : Reply)
  /-- A notification. -/
  | told (call : Call)

/-- The message that was passed on. -/
def Exchange.call : Exchange → Call
  | .asked call _ => call
  | .told call => call

/-- A line that does what its oracle says. -/
structure Line where
  oracle : Oracle
  /-- The number of messages so far. -/
  clock : Nat := 0
  /-- What was passed on, in order. -/
  log : List Exchange := []

namespace Line

/-- Asks the oracle about a request. -/
def request (call : Call) (p : Line) : Reply × Line :=
  match p.oracle.request p.clock call with
  | .passed reply =>
    (reply, { p with clock := p.clock + 1, log := p.log ++ [.asked call reply] })
  | .dropped o => (o.reply, { p with clock := p.clock + 1 })

/-- Asks the oracle about a notification. -/
def notify (call : Call) (p : Line) : Except Fault Unit × Line :=
  match p.oracle.notification p.clock call with
  | none => (.ok (), { p with clock := p.clock + 1, log := p.log ++ [.told call] })
  | some o => (.error o.fault, { p with clock := p.clock + 1 })

instance : Peer Line where
  request := request
  notify := notify
  isClosed p := p.oracle.isClosed p.clock
  record _ p := p

@[simp] theorem noted_eq (es : List Entry) (p : Line) : Peer.noted es p = p := by
  induction es with
  | nil => rfl
  | cons e es ih => exact ih

/-- A request is passed on with what comes of it, or left out. -/
theorem request_log {call : Call} {p q : Line} {reply : Reply}
    (h : Peer.request call p = (reply, q)) :
    q.log = p.log ∨ q.log = p.log ++ [.asked call reply] := by
  change p.request call = _ at h
  unfold request at h
  split at h
  · cases h
    exact .inr rfl
  · cases h
    exact .inl rfl

/-- A request that was answered was passed on. -/
theorem request_log_of_result {call : Call} {p q : Line} {v : Json}
    (h : Peer.request call p = (.result v, q)) : q.log = p.log ++ [.asked call (.result v)] := by
  change p.request call = _ at h
  unfold request at h
  split at h
  · cases h
    rfl
  · next o _ => cases o <;> cases h

theorem notify_log_of_ok {call : Call} {p q : Line}
    (h : Peer.notify call p = (.ok (), q)) : q.log = p.log ++ [.told call] := by
  change p.notify call = _ at h
  unfold notify at h
  split at h
  · cases h
    rfl
  · cases h

/-- A notification that is not passed on is left out, and the failure is the loss of the
connection. -/
theorem notify_log_of_error {call : Call} {p q : Line} {fault : Fault}
    (h : Peer.notify call p = (.error fault, q)) :
    q.log = p.log ∧ fault.Among [.transportClosed] := by
  change p.notify call = _ at h
  unfold notify at h
  split at h
  · cases h
  · next o _ =>
    cases h
    refine ⟨rfl, fun f hf => ?_⟩
    cases o with
    | lost l =>
      cases hf
      exact List.mem_singleton_self _
    | stray s => cases hf

end Line

/-! ## Operations -/

/-- An operation of a session with all that it depends on besides the session and the line. -/
inductive Operation
  | handshake (disk : Disk) (processId : Int) (root : Path)
  | openDocument (disk : Disk) (path : Path) (languageId : Text)
  | documentSymbols (document : Option TextDocument)
  | references (uri : Text) (p : Position)
  | workspaceSymbols (text : String)
  | close

namespace Operation

variable {τ α : Type} [Peer τ]

/-- What is left when it does not matter what a step gives. -/
def silenced (r : Except Fault α × Talk τ) : Except Fault Unit × Talk τ :=
  (r.1.map fun _ => (), r.2)

/-- Does an operation: whether it succeeds, and what it leaves. -/
def perform (op : Operation) (t : Talk τ) : Except Fault Unit × Talk τ :=
  match op with
  | .handshake disk processId root =>
    silenced (exec (Session.handshake disk processId root) t)
  | .openDocument disk path languageId =>
    silenced (exec (Session.openDocument disk path languageId) t)
  | .documentSymbols document => silenced (exec (Session.documentSymbols document) t)
  | .references uri p => silenced (exec (Session.references uri p) t)
  | .workspaceSymbols text => silenced (exec (Session.workspaceSymbols text) t)
  | .close => exec Session.close t

/-- Does several operations, one after the other and whatever becomes of each. -/
def performAll (ops : List Operation) (t : Talk τ) : Talk τ :=
  ops.foldl (fun t op => (op.perform t).2) t

end Operation

/-! ## One operation -/

/-- The questions that may be put in a session. -/
inductive Session.Permits (s : Session) : Call → Prop
  | symbols {uri : Text} (hopen : Fields.has s.documents uri = true) :
      Permits s (Call.documentSymbol uri)
  | references {uri : Text} (hopen : Fields.has s.documents uri = true) (p : Position) :
      Permits s (Call.references uri p false)
  | search (text : String) : Permits s (Call.workspaceSymbol text)

/-- What is exchanged when a session is closed. -/
inductive Farewell : List Exchange → Prop
  | silent : Farewell []
  | asked (reply : Reply) : Farewell [.asked Call.shutdown reply]
  | told (v : Json) : Farewell [.asked Call.shutdown (.result v), .told Call.exit]

/-- What one operation can do to a session and its line. -/
inductive Step (t : Talk Line) : Except Fault Unit → Talk Line → Prop
  /-- It is rejected. -/
  | rejected {f : Failure} (hkind : f.kind = .sessionState) : Step t (.error (.failure f)) t
  /-- The document that was opened last is missing. -/
  | stranded {f : Failure} (h : t.session.phase = .documentOpen)
      (hdocument : t.session.document = none) : Step t (.error (.failure f)) t
  /-- The handshake fails. -/
  | ungreeted (client : ClientInfo) (reply : Reply) (fault : Fault) {q : Line}
      (h : t.session.phase = .created)
      (hlog : q.log = t.peer.log ∨ q.log = t.peer.log ++ [.asked (Call.handshake client) reply])
      (hkind : fault.Among [.handshake, .transportClosed]) :
      Step t (.error fault) ⟨{ t.session with phase := .initializing }.fallen fault, q⟩
  /-- The handshake succeeds. -/
  | greeted (client : ClientInfo) (v : Json) {capabilities : Json} {q : Line}
      (h : t.session.phase = .created)
      (hlog : q.log = t.peer.log ++
        [.asked (Call.handshake client) (.result v), .told Call.initialized]) :
      Step t (.ok ())
        ⟨{ t.session with capabilities := capabilities, phase := .initialized }, q⟩
  /-- A document is not opened. -/
  | unopened (fault : Fault) {q : Line} (h : t.session.phase ∈ Phase.ready)
      (hlog : q.log = t.peer.log) (hkind : fault.Among [.documentRead, .transportClosed]) :
      Step t (.error fault) ⟨t.session.fallen fault, q⟩
  /-- A document is open already. -/
  | reopened {uri : Text} {d : TextDocument} (h : t.session.phase ∈ Phase.ready)
      (hd : Fields.get? t.session.documents uri = some d) :
      Step t (.ok ()) ⟨t.session.withLast d, t.peer⟩
  /-- A document is opened. -/
  | opened {uri : Text} {languageId : Text} {text : String} {q : Line}
      (h : t.session.phase ∈ Phase.ready)
      (hnew : Fields.get? t.session.documents uri = none)
      (hlog : q.log = t.peer.log ++
        [.told (Call.didOpen uri languageId Session.documentVersion text)]) :
      Step t (.ok ()) ⟨t.session.withOpened (Session.documentAt uri languageId text), q⟩
  /-- A question is asked. -/
  | asked {call : Call} {reply : Reply} (outcome : Except Fault Unit) {q : Line}
      (h : t.session.phase ∈ Phase.ready) (hcall : t.session.Permits call)
      (hlog : q.log = t.peer.log ∨ q.log = t.peer.log ++ [.asked call reply])
      (hkind : ∀ fault, outcome = .error fault → fault.Among [.query, .transportClosed]) :
      Step t outcome ⟨t.session.afterQuery outcome, q⟩
  /-- The session is closed. -/
  | closed (sent : List Exchange) {outcome : Except Fault Unit} {q : Line}
      (hsent : sent = [] ∨ t.session.phase ∈ Phase.ready ∧ Farewell sent)
      (hlog : q.log = t.peer.log ++ sent) (hkind : ∀ f, outcome ≠ .error (.failure f)) :
      Step t outcome ⟨{ t.session with phase := .closed }, q⟩

namespace Step

open Session Operation

variable {t : Talk Line}

theorem of_handshakeEnds {disk : Disk} {processId : Int} {root : Path}
    {r : Except Fault Json × Talk Line} (h : HandshakeEnds disk processId root t r) :
    Step t (silenced r).1 (silenced r).2 := by
  cases h with
  | outOfPhase h => exact .rejected rfl
  | @unresolved e h hroot =>
    exact ungreeted (clientInfo processId root) .silent (.stray (.ofResolve e)) h (.inl rfl)
      (by rintro f ⟨⟩)
  | unanswered h hroot hask hverdict =>
    rw [Line.noted_eq] at hask
    exact .ungreeted _ _ _ h (Line.request_log hask) (handshakeVerdict_among hverdict)
  | untold h hroot hask htell =>
    rw [Line.noted_eq] at hask
    obtain ⟨hlog, hkind⟩ := Line.notify_log_of_error htell
    refine .ungreeted _ _ _ h (.inr (hlog.trans (Line.request_log_of_result hask))) (hkind.mono ?_)
    simp
  | @done resolved es es' v p q h hroot hask htell =>
    rw [Line.noted_eq] at hask
    refine .greeted (clientInfo processId resolved) v h ?_
    rw [Line.noted_eq, Line.notify_log_of_ok htell, Line.request_log_of_result hask]
    simp

theorem of_openEnds {disk : Disk} {path : Path} {languageId : Text}
    {r : Except Fault TextDocument × Talk Line} (h : OpenEnds disk path languageId t r) :
    Step t (silenced r).1 (silenced r).2 := by
  cases h with
  | outOfPhase h => exact .rejected rfl
  | @unreadable cause h =>
    exact unopened (.failure (.documentUnreadable path cause)) h rfl (by
      rintro f ⟨⟩
      simp [Failure.kind])
  | @astray s h => exact unopened (.stray s) h rfl (by rintro f ⟨⟩)
  | again es h htext hpath hd =>
    rw [silenced, Line.noted_eq]
    exact .reopened h hd
  | untold h htext hpath hd htell =>
    obtain ⟨hlog, hkind⟩ := Line.notify_log_of_error htell
    exact .unopened _ h hlog (hkind.mono (by simp))
  | opened es h htext hpath hd htell =>
    refine .opened h hd ?_
    rw [Line.noted_eq, Line.notify_log_of_ok htell]

theorem of_askEnds {α : Type} {call : Call} {subject : Subject} {read : Json → Except Failure α}
    {r : Except Fault α × Talk Line} (h : t.session.phase ∈ Phase.ready)
    (hcall : t.session.Permits call) (hread : ∀ v f, read v = .error f → f.kind = .query)
    (hends : AskEnds call (queryVerdict subject read) t r) :
    Step t (silenced r).1 (silenced r).2 := by
  obtain @⟨es, es', reply, p, hask⟩ := hends
  rw [Line.noted_eq] at hask
  rw [silenced, Line.noted_eq]
  cases hverdict : queryVerdict subject read t.session.timeout reply with
  | ok a =>
    exact asked (.ok ()) h hcall (Line.request_log hask) (by rintro fault ⟨⟩)
  | error fault =>
    refine asked (.error fault) h hcall (Line.request_log hask) ?_
    rintro fault ⟨⟩
    exact queryVerdict_among hread hverdict

theorem of_symbolsEnds {document : Option TextDocument}
    {r : Except Fault (List SymbolNode) × Talk Line} (h : SymbolsEnds document t r) :
    Step t (silenced r).1 (silenced r).2 := by
  cases h with
  | outOfPhase h => exact .rejected rfl
  | stranded h hdocument => exact .stranded h (Option.or_eq_none_iff.1 hdocument).2
  | unopened h htarget hopen => exact .rejected rfl
  | asked h htarget hopen hends =>
    exact of_askEnds (by simp [h, Phase.ready]) (.symbols hopen)
      (fun _ _ => Answer.kind_of_decodeAll) hends

theorem of_referencesEnds {uri : Text} {p : Position}
    {r : Except Fault (List Location) × Talk Line} (h : ReferencesEnds uri p t r) :
    Step t (silenced r).1 (silenced r).2 := by
  cases h with
  | outOfPhase h => exact .rejected rfl
  | unopened h hopen => exact .rejected rfl
  | asked h hopen hends =>
    exact of_askEnds (by simp [h, Phase.ready]) (.references hopen p)
      (fun _ _ => Answer.kind_of_decodeAll) hends

theorem of_searchEnds {text : String} {r : Except Fault (List SymbolNode) × Talk Line}
    (h : SearchEnds text t r) : Step t (silenced r).1 (silenced r).2 := by
  cases h with
  | outOfPhase h => exact .rejected rfl
  | asked h hends =>
    exact of_askEnds h (.search text) (fun _ _ => Answer.kind_of_decodeAll) hends

theorem of_closeEnds {r : Except Fault Unit × Talk Line} (h : CloseEnds t r) :
    Step t r.1 r.2 := by
  cases h with
  | quiet es h => exact .closed [] (.inl rfl) (by simp) (by simp)
  | @refused es reply result p h hopen hask hresult =>
    rw [Line.noted_eq]
    obtain hlog | hlog := Line.request_log hask
    · exact .closed [] (.inl rfl) (by simp [hlog]) hresult
    · exact .closed _ (.inr ⟨h, .asked reply⟩) hlog hresult
  | @agreed es v told result p q h hopen hask htell hresult =>
    rw [Line.noted_eq]
    have hasked := Line.request_log_of_result hask
    cases told with
    | ok u =>
      refine .closed _ (.inr ⟨h, .told v⟩) ?_ fun f hf => ?_
      · rw [Line.notify_log_of_ok htell, hasked]
        simp
      · cases (hresult f hf).1
    | error fault =>
      obtain ⟨hlog, hkind⟩ := Line.notify_log_of_error htell
      refine .closed _ (.inr ⟨h, .asked (.result v)⟩) (hlog.trans hasked) fun f hf => ?_
      obtain ⟨rfl, hne⟩ : fault = .failure f ∧ _ := by simpa using hresult f hf
      exact hne (by simpa using hkind f rfl)

end Step

/-- Every operation is one of the steps. -/
theorem Operation.step (op : Operation) (t : Talk Line) :
    Step t (op.perform t).1 (op.perform t).2 := by
  cases op with
  | handshake disk processId root => exact .of_handshakeEnds (Session.handshake_ends ..)
  | openDocument disk path languageId => exact .of_openEnds (Session.openDocument_ends ..)
  | documentSymbols document => exact .of_symbolsEnds (Session.documentSymbols_ends ..)
  | references uri p => exact .of_referencesEnds (Session.references_ends ..)
  | workspaceSymbols text => exact .of_searchEnds (Session.workspaceSymbols_ends ..)
  | close => exact .of_closeEnds (Session.close_ends t)

end SymbolAtlas
