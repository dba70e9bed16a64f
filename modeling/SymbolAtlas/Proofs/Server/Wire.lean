import SymbolAtlas.Proofs.Rpc.Outbound
import SymbolAtlas.Proofs.Session.Exec
import SymbolAtlas.Server.Live

/-!
# What a running server is sent

The requests and notifications that a running server was sent are those that the client meant to
send, in order, the requests numbered from one. Whatever the server does, nothing is added to them.

* `Outgoing` — something to be sent, with `Outgoing.wire` for the messages;
* `LiveServer.Sends` — what was sent between two states of a running server;
* `LiveServer.request_sends`, `LiveServer.notify_sends` — the two ways of sending;
* `LiveServer.connect_unused` — a server that has just been started was sent nothing.
-/

namespace SymbolAtlas

open Lsp

/-- Something to be sent. -/
inductive Outgoing
  | request (call : Call)
  | notification (call : Call)

namespace Outgoing

/-- The number of requests. -/
def requests : List Outgoing → Nat
  | [] => 0
  | .request _ :: os => requests os + 1
  | .notification _ :: os => requests os

/-- The messages, requests being numbered from the given number on. -/
def wire : Nat → List Outgoing → List Json
  | _, [] => []
  | n, .request call :: os => Connection.requestMessage n call.method call.params :: wire (n + 1) os
  | n, .notification call :: os =>
    Connection.notificationMessage call.method call.params :: wire n os

theorem requests_append (os os' : List Outgoing) :
    requests (os ++ os') = requests os + requests os' := by
  induction os with
  | nil => simp [requests]
  | cons o os ih =>
    cases o with
    | request call => simp [requests, ih, Nat.add_right_comm]
    | notification call => simp [requests, ih]

theorem wire_append (n : Nat) (os os' : List Outgoing) :
    wire n (os ++ os') = wire n os ++ wire (n + requests os) os' := by
  induction os generalizing n with
  | nil => rfl
  | cons o os ih =>
    cases o with
    | request call => simp [wire, requests, ih, Nat.add_comm 1, Nat.add_assoc]
    | notification call => simp [wire, requests, ih]

end Outgoing

namespace Connection

variable {σ : Type}

theorem isSpoken_requestMessage (id : Nat) (method : String) (params : Option Json) :
    isSpoken (requestMessage id method params) = true := by
  have hjsonrpc : Text.ofString "jsonrpc" ≠ Text.ofString "method" := by decide
  have hid : Text.ofString "id" ≠ Text.ofString "method" := by decide
  simp [isSpoken, requestMessage, Json.field?, Fields.get?, hjsonrpc, hid]

theorem isSpoken_notificationMessage (method : String) (params : Option Json) :
    isSpoken (notificationMessage method params) = true := by
  have hjsonrpc : Text.ofString "jsonrpc" ≠ Text.ofString "method" := by decide
  simp [isSpoken, notificationMessage, Json.field?, Fields.get?, hjsonrpc]

/-- The connection after a message was written, with what it then knows about its calls. -/
structure Wrote (c : Connection σ) (message : Json) (calls : CallTable) (d : Connection σ) :
    Prop where
  sent : d.sent = c.sent ++ [message]
  settled : d.settled = c.settled
  calls : d.calls = calls

theorem Wrote.spoken {c d : Connection σ} {message : Json} {calls : CallTable}
    (h : Wrote c message calls d) (hspoken : isSpoken message = true) :
    d.spoken = c.spoken ++ [message] := by
  simp [Connection.spoken, h.sent, hspoken]

/-- The connection with a new request that is to be written. -/
def requesting (c : Connection σ) (method : String) : Connection σ :=
  { c with calls := c.registered }.record .debug "rpc.request"
    [("method", .str method), ("id", .int c.calls.nextId)]

theorem later_requesting (c : Connection σ) (method : String) : Later c (c.requesting method) :=
  ⟨List.prefix_rfl, List.prefix_rfl⟩

/-- What comes of a request whose message was written like that. -/
def requested (id : Nat) : Option StreamFault × Connection σ → Except Fault Nat × Connection σ
  | (some (.other kind text), d) => (.error (.stray (.raised kind text)), d)
  | (_, d) => (.ok id, d)

theorem sendRequest_of_open {c : Connection σ} (h : c.calls.closed = none) (method : String)
    (params : Option Json) :
    c.sendRequest method params = requested c.calls.nextId
      ((c.requesting method).write c.depths.send
        (requestMessage c.calls.nextId method params)) := by
  rw [sendRequest, CallTable.register_eq_some_iff.2 ⟨h, rfl, rfl⟩]
  dsimp only [requesting, registered, record, recordAll]
  generalize write _ _ _ = written
  obtain ⟨_ | _ | _, d⟩ := written <;> rfl

/-- A notification is written, or it fails and nothing is. -/
theorem sendNotification_cases (c : Connection σ) (method : String) (params : Option Json) :
    (∃ d, c.sendNotification method params = (.ok (), d) ∧
      Wrote c (notificationMessage method params) c.calls d) ∨
    ∃ fault d, c.sendNotification method params = (.error fault, d) ∧ Quiet c d := by
  unfold sendNotification
  split
  · exact .inr ⟨_, _, rfl, .refl c⟩
  · have hnoted := quiet_recordAll c [⟨.debug, "rpc.notification", [("method", .str method)]⟩]
    dsimp only
    rw [record]
    obtain ⟨-, h⟩ | ⟨text, h⟩ | ⟨kind, text, h⟩ :=
      write_cases (c.recordAll _) _ (notificationMessage method params) <;> rw [h]
    · exact .inl ⟨_, rfl, rfl, rfl, rfl⟩
    · exact .inr ⟨_, _, rfl, hnoted.trans (quiet_shutdown ..)⟩
    · exact .inr ⟨_, _, rfl, hnoted⟩

/-- A request is written, or it is lost with the connection, or it fails; only then nothing is. -/
theorem sendRequest_cases (c : Connection σ) (method : String) (params : Option Json) :
    (∃ d, c.sendRequest method params = (.ok c.calls.nextId, d) ∧
      Wrote c (requestMessage c.calls.nextId method params) c.registered d) ∨
    (∃ d l, c.sendRequest method params = (.ok c.calls.nextId, d) ∧ Later c d ∧
      d.spoken = c.spoken ∧ (c.Numbered → d.outcome? c.calls.nextId = some (.lost l))) ∨
    ∃ fault d, c.sendRequest method params = (.error fault, d) ∧ Later c d ∧
      d.spoken = c.spoken := by
  by_cases hopen : c.calls.closed = none
  · rw [sendRequest_of_open hopen]
    obtain ⟨-, h⟩ | ⟨text, h⟩ | ⟨kind, text, h⟩ :=
      write_cases (c.requesting method) c.depths.send
        (requestMessage c.calls.nextId method params) <;> rw [h]
    · exact .inl ⟨_, rfl, rfl, rfl, rfl⟩
    · have hquiet := quiet_shutdown (c.requesting method) s!"write failed: {text}"
      have hpending : c.calls.nextId ∈ (c.requesting method).calls.pending :=
        List.mem_append_right _ (List.mem_singleton_self _)
      refine .inr (.inl ⟨_, _, rfl, (c.later_requesting method).trans hquiet.later, hquiet.spoken,
        fun hc => outcome?_shutdown (c := c.requesting method) hopen hpending ?_ _⟩)
      exact fun s hs => Nat.ne_of_lt (hc.settled s hs)
    · exact .inr (.inr ⟨_, _, rfl, c.later_requesting method, rfl⟩)
  · have hclosed : c.calls.register = none := by
      simpa [CallTable.register, CallTable.isClosed, Option.isSome_iff_ne_none] using hopen
    rw [sendRequest, hclosed]
    exact .inr (.inr ⟨_, _, rfl, .refl c, rfl⟩)

end Connection

namespace LiveServer

open Connection

/-! ## What a server does -/

theorem quiet_perform (s : LiveServer) (a : ServerAct) :
    Quiet s.connection (s.perform a).connection := by
  cases a with
  | emit bytes => exact quiet_feed ..
  | exit code => exact .refl _
  | deafen text => exact .of_eq rfl rfl rfl

theorem quiet_performs (acts : List ServerAct) (s : LiveServer) :
    Quiet s.connection (acts.foldl perform s).connection := by
  induction acts generalizing s with
  | nil => exact .refl _
  | cons a acts ih => exact (quiet_perform s a).trans (ih _)

theorem quiet_settle (s : LiveServer) : Quiet s.connection s.settle.connection := by
  unfold settle
  split
  · exact quiet_finish _
  · exact .refl _

theorem quiet_performAll (s : LiveServer) (acts : List ServerAct) :
    Quiet s.connection (s.performAll acts).connection := by
  unfold performAll
  split
  · exact .refl _
  · exact (quiet_performs acts s).trans (quiet_settle _)

theorem quiet_afterWrite (s : LiveServer) (message : Json) :
    Quiet s.connection (s.afterWrite message).connection := by
  unfold afterWrite receive
  split
  · exact quiet_performAll { s with received := s.received ++ [message] } _
  · exact .refl _

theorem quiet_noted (es : List Entry) (s : LiveServer) :
    Quiet s.connection (Peer.noted es s).connection := by
  induction es generalizing s with
  | nil => exact .refl _
  | cons e es ih =>
    have hrecord : Quiet s.connection (Peer.record e s).connection := quiet_recordAll ..
    exact hrecord.trans (ih _)

/-! ## What is sent -/

/-- Between two states of a server, this was sent to it and nothing else. -/
structure Sends (s : LiveServer) (os : List Outgoing) (s' : LiveServer) : Prop where
  settled : s.connection.settled <+: s'.connection.settled
  spoken : s'.connection.spoken =
    s.connection.spoken ++ Outgoing.wire s.connection.calls.nextId os
  nextId : s'.connection.calls.nextId = s.connection.calls.nextId + Outgoing.requests os
  numbered : s.connection.Numbered → s'.connection.Numbered

namespace Sends

variable {s s' s'' : LiveServer} {os os' : List Outgoing}

theorem of_quiet (h : Quiet s.connection s'.connection) : Sends s [] s' where
  settled := h.settled
  spoken := by simp [Outgoing.wire, h.spoken]
  nextId := h.nextId
  numbered := h.numbered

theorem trans (h : Sends s os s') (h' : Sends s' os' s'') : Sends s (os ++ os') s'' where
  settled := h.settled.trans h'.settled
  spoken := by
    rw [h'.spoken, h.spoken, h.nextId, Outgoing.wire_append, List.append_assoc]
  nextId := by
    rw [h'.nextId, h.nextId, Outgoing.requests_append, Nat.add_assoc]
  numbered hs := h'.numbered (h.numbered hs)

theorem later (h : Sends s os s') : Later s.connection s'.connection :=
  ⟨h.settled, h.spoken ▸ List.prefix_append ..⟩

theorem quiet (h : Sends s os s') (h' : Quiet s'.connection s''.connection) : Sends s os s'' := by
  simpa using h.trans (.of_quiet h')

end Sends

variable {s s' : LiveServer} {call : Call}

/-- What was written was sent, and whatever the server does then adds nothing to it. -/
theorem sends_of_wrote {c : Connection Sink} {o : Outgoing} {message : Json} {calls : CallTable}
    (hwrote : Wrote s.connection message calls c)
    (hmessage : Outgoing.wire s.connection.calls.nextId [o] = [message])
    (hspoken : isSpoken message = true)
    (hnextId : calls.nextId = s.connection.calls.nextId + Outgoing.requests [o])
    (hnumbered : s.connection.Numbered → c.Numbered) :
    Sends s [o] ((s.withConnection c).afterWrite message) := by
  have hsends : Sends s [o] (s.withConnection c) :=
    { settled := hwrote.settled.symm ▸ List.prefix_rfl
      spoken := by
        rw [hmessage]
        exact hwrote.spoken hspoken
      nextId := (congrArg CallTable.nextId hwrote.calls).trans hnextId
      numbered := hnumbered }
  exact hsends.quiet (quiet_afterWrite ..)

/-- A notification that does not fail was sent. -/
theorem notify_sends (h : Peer.notify call s = (.ok (), s')) :
    Sends s [.notification call] s' := by
  change s.notify call = _ at h
  unfold notify at h
  obtain ⟨c, hsend, hwrote⟩ | ⟨fault, c, hsend, -⟩ :=
    sendNotification_cases s.connection call.method call.params
  · rw [hsend] at h
    obtain rfl : _ = s' := congrArg Prod.snd h
    refine sends_of_wrote hwrote rfl (isSpoken_notificationMessage ..) rfl fun hs => ?_
    exact ⟨by simpa [hwrote.calls] using hs.pending,
      by simpa [hwrote.calls, hwrote.settled] using hs.settled⟩
  · rw [hsend] at h
    cases h

/-- A notification that fails was not sent. -/
theorem notify_quiet {fault : Fault} (h : Peer.notify call s = (.error fault, s')) :
    Quiet s.connection s'.connection := by
  change s.notify call = _ at h
  unfold notify at h
  obtain ⟨c, hsend, hwrote⟩ | ⟨fault, c, hsend, hquiet⟩ :=
    sendNotification_cases s.connection call.method call.params
  · rw [hsend] at h
    cases h
  · rw [hsend] at h
    obtain rfl : _ = s' := congrArg Prod.snd h
    exact hquiet

theorem outcome?_of_replyTo {c : Connection Sink} {id : Nat} {v : Json}
    (h : replyTo c id = .result v) : c.outcome? id = some (.result v) := by
  unfold replyTo at h
  split at h <;> cases h
  assumption

/-- A request was sent, and an answer to it was recorded; or it has no answer. -/
theorem request_sends (hs : s.connection.Numbered) {reply : Reply}
    (h : Peer.request call s = (reply, s')) :
    (Sends s [.request call] s' ∧ ∀ v, reply = .result v →
      s'.connection.outcome? s.connection.calls.nextId = some (.result v)) ∨
    (Later s.connection s'.connection ∧ s'.connection.spoken = s.connection.spoken ∧
      ∀ v, reply ≠ .result v) := by
  change s.request call = _ at h
  unfold request at h
  obtain ⟨c, hsend, hwrote⟩ | ⟨c, l, hsend, hlater, hspoken, hlost⟩ |
      ⟨fault, c, hsend, hlater, hspoken⟩ :=
    sendRequest_cases s.connection call.method call.params
  · rw [hsend] at h
    obtain ⟨rfl, rfl⟩ := Prod.mk.inj h
    refine .inl ⟨sends_of_wrote hwrote rfl (isSpoken_requestMessage ..) rfl fun hs => ?_, ?_⟩
    · exact hs.registered hwrote.calls hwrote.settled
    · exact fun v hv => outcome?_of_replyTo hv
  · rw [hsend] at h
    obtain ⟨rfl, rfl⟩ := Prod.mk.inj h
    have hquiet := quiet_afterWrite (s.withConnection c)
      (requestMessage s.connection.calls.nextId call.method call.params)
    refine .inr ⟨hlater.trans hquiet.later, hquiet.spoken.trans hspoken, fun v hv => ?_⟩
    have hstill := hquiet.later.outcome? (hlost hs)
    rw [outcome?_of_replyTo hv] at hstill
    cases hstill
  · rw [hsend] at h
    obtain ⟨rfl, rfl⟩ := Prod.mk.inj h
    refine .inr ⟨hlater, hspoken, fun v => ?_⟩
    unfold replyOfFault
    split <;> simp

/-- A server that has just been started was sent nothing. -/
theorem connect_unused (server : Server) (child : Child) (journal : List Entry) :
    Unused (connect server child journal).connection := by
  have hstart : ∀ (idle : LiveServer) (acts : List ServerAct), Unused idle.connection →
      Unused (idle.performAll acts).connection.start := fun idle acts h =>
    (h.quiet (quiet_performAll idle acts)).quiet (quiet_start _)
  exact hstart _ _ ⟨rfl, rfl, ⟨by simp, by simp⟩⟩

end LiveServer

end SymbolAtlas
