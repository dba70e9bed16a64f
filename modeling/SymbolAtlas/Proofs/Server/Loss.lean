import SymbolAtlas.Proofs.Rpc.Loss
import SymbolAtlas.Proofs.Server.Wire
import SymbolAtlas.Proofs.Session.Farewell

/-!
# Losing a server

A message to a server is lost in one of three ways: the connection was closed before, the message
cannot be written, or the server's stream comes to an end, or to something unreadable, before it
holds a response. Whichever it is, the client learns of a lost connection and nothing else.

* `LiveServer.Steady` — what holds of every server that a client has talked to from the beginning,
  with `LiveServer.steady_connect` and `LiveServer.steady_kept`;
* `ServerAct.written`, `ServerAct.ends` — the stream that a server makes;
* `LiveServer.Loses` — the ways in which a message is lost;
* `LiveServer.request_lost`, `LiveServer.notify_lost` — what the client learns;
* `LiveServer.steady_plain` — nothing else goes wrong with a server.
-/

namespace SymbolAtlas

namespace Connection

variable {σ : Type} {c d : Connection σ}

/-! ## What sending leaves alone -/

@[simp] theorem shutdown_inbound (c : Connection σ) (reason : String) :
    (c.shutdown reason).inbound = c.inbound := by
  unfold shutdown
  split <;> rfl

@[simp] theorem shutdown_name (c : Connection σ) (reason : String) :
    (c.shutdown reason).name = c.name := by
  unfold shutdown
  split <;> rfl

@[simp] theorem write_inbound (c : Connection σ) (depth : Nat) (m : Json) :
    (c.write depth m).2.inbound = c.inbound := by
  rcases c.write_cases depth m with ⟨-, h⟩ | ⟨text, h⟩ | ⟨kind, text, h⟩ <;> simp [h]

/-- Sending a request leaves it to the listener to go on. -/
theorem sendRequest_listening (c : Connection σ) (method : String) (params : Option Json) :
    (c.sendRequest method params).2.listener = c.listener ∧
      (c.sendRequest method params).2.inbound = c.inbound := by
  unfold sendRequest
  split
  · exact ⟨rfl, rfl⟩
  · next id calls _ =>
    dsimp only
    generalize hd : ({ c with calls := calls } : Connection σ).record _ _ _ = d
    have hlistener :
        (d.write d.depths.send (requestMessage id method params)).2.listener = c.listener := by
      rw [write_listener, ← hd]
      rfl
    have hinbound :
        (d.write d.depths.send (requestMessage id method params)).2.inbound = c.inbound := by
      rw [write_inbound, ← hd]
      rfl
    generalize d.write _ _ = r at hlistener hinbound
    obtain ⟨_ | _ | _, e⟩ := r <;> exact ⟨hlistener, hinbound⟩

/-- Sending a notification leaves it to the listener to go on. -/
theorem sendNotification_listening (c : Connection σ) (method : String) (params : Option Json) :
    (c.sendNotification method params).2.listener = c.listener ∧
      (c.sendNotification method params).2.inbound = c.inbound := by
  unfold sendNotification
  split
  · exact ⟨rfl, rfl⟩
  · dsimp only
    generalize hd : c.record _ _ _ = d
    have hlistener :
        (d.write d.depths.send (notificationMessage method params)).2.listener = c.listener := by
      rw [write_listener, ← hd]
      rfl
    have hinbound :
        (d.write d.depths.send (notificationMessage method params)).2.inbound = c.inbound := by
      rw [write_inbound, ← hd]
      rfl
    generalize d.write _ _ = r at hlistener hinbound
    obtain ⟨_ | _ | _, e⟩ := r <;> exact ⟨hlistener, hinbound⟩

/-! ## How sending goes -/

variable {method : String} {params : Option Json} {text : String}

/-- The connection after a request was written. -/
def asked (c : Connection σ) (method : String) (params : Option Json) : Connection σ :=
  { c.requesting method with sent := c.sent ++ [requestMessage c.calls.nextId method params] }

theorem sendRequest_of_written (hopen : c.calls.closed = none)
    (h : c.sendFault? (requestMessage c.calls.nextId method params) = none) :
    c.sendRequest method params = (.ok c.calls.nextId, c.asked method params) := by
  have hrequesting : (c.requesting method).writeFault? c.depths.send
      (requestMessage c.calls.nextId method params) = none := h
  rw [sendRequest_of_open hopen, write, hrequesting]
  rfl

theorem sendRequest_of_broken (hopen : c.calls.closed = none)
    (h : c.sendFault? (requestMessage c.calls.nextId method params) = some (.broken text)) :
    c.sendRequest method params =
      (.ok c.calls.nextId, (c.requesting method).shutdown s!"write failed: {text}") := by
  have hrequesting : (c.requesting method).writeFault? c.depths.send
      (requestMessage c.calls.nextId method params) = some (.broken text) := h
  rw [sendRequest_of_open hopen, write, hrequesting]
  rfl

theorem sendNotification_of_written (hopen : ¬ c.calls.isClosed = true)
    (h : c.sendFault? (notificationMessage method params) = none) :
    (c.sendNotification method params).1 = .ok () := by
  have hnoted : (c.record .debug "rpc.notification" [("method", .str method)]).sendFault?
      (notificationMessage method params) = none := h
  rw [sendFault?] at hnoted
  rw [sendNotification, if_neg hopen]
  dsimp only
  rw [write, hnoted]

theorem sendNotification_of_broken (hopen : ¬ c.calls.isClosed = true)
    (h : c.sendFault? (notificationMessage method params) = some (.broken text)) :
    (c.sendNotification method params).1 = .error (.failure (.lost (.cannotWrite c.name text))) ∧
      (c.sendNotification method params).2.calls.isClosed = true := by
  have hnoted : (c.record .debug "rpc.notification" [("method", .str method)]).sendFault?
      (notificationMessage method params) = some (.broken text) := h
  rw [sendFault?] at hnoted
  rw [sendNotification, if_neg hopen]
  dsimp only
  rw [write, hnoted]
  dsimp only
  rw [shutdown_name]
  exact ⟨rfl, isClosed_shutdown ..⟩

/-- A request that was just numbered is under way. -/
theorem owes_requesting (hopen : c.calls.closed = none) (hc : c.Numbered) (method : String) :
    (c.requesting method).Owes c.calls.nextId where
  «open» := hopen
  pending := List.mem_append_right _ (List.mem_singleton_self _)
  unsettled r hr := Nat.ne_of_lt (hc.settled r hr)

end Connection

/-! ## What a server does -/

namespace ServerAct

/-- The bytes that a server writes when it does all this. -/
def written : List ServerAct → List UInt8
  | [] => []
  | .emit bytes :: acts => bytes ++ written acts
  | _ :: acts => written acts

/-- Whether a server ends when it does all this. -/
def ends : List ServerAct → Bool
  | [] => false
  | .exit _ :: _ => true
  | _ :: acts => ends acts

end ServerAct

namespace LiveServer

open Connection

variable {s s' : LiveServer} {call : Lsp.Call} {id : Nat} {atEnd : Bool}

/-- What holds of every server that a client has talked to from the beginning. -/
structure Steady (s : LiveServer) : Prop where
  orderly : s.connection.Orderly
  attended : s.connection.Attended
  /-- Writing to it only fails because it does not read any more. -/
  writer : ∀ kind text, s.connection.writer ≠ some (.other kind text)

/-- The client has sent something. -/
theorem Steady.sent {P : Json.Object → Prop} (hs : s.Steady) {c : Connection Sink}
    (hmoves : Moves P s.connection c)
    (hlistening : c.listener = s.connection.listener ∧ c.inbound = s.connection.inbound) :
    (s.withConnection c).Steady where
  orderly := hmoves.orderly hs.orderly
  attended := hs.attended.congr hlistening.1 hlistening.2 hmoves.depths
  writer := hmoves.writer ▸ hs.writer

/-- The listener has taken what has arrived. -/
theorem Steady.listened (hs : s.Steady) {i : Inbound} :
    (s.withConnection (s.connection.withInbound i).listen).Steady := by
  have hmoves : Moves (fun _ => True) s.connection (s.connection.withInbound i).listen :=
    .head (.read i) (moves_listen _)
  exact ⟨hmoves.orderly hs.orderly, attended_listen hs.attended.started, hmoves.writer ▸ hs.writer⟩

theorem Steady.perform (hs : s.Steady) (a : ServerAct) : (s.perform a).Steady := by
  cases a with
  | emit bytes => exact hs.listened
  | exit code => exact ⟨hs.orderly, hs.attended, hs.writer⟩
  | deafen text =>
    exact ⟨⟨hs.orderly.sealed, hs.orderly.stopped, hs.orderly.numbered.pending,
      hs.orderly.numbered.settled⟩, hs.attended.congr rfl rfl rfl, by simp [LiveServer.perform]⟩

theorem Steady.performs (hs : s.Steady) (acts : List ServerAct) :
    (acts.foldl LiveServer.perform s).Steady := by
  induction acts generalizing s with
  | nil => exact hs
  | cons a acts ih => exact ih (hs.perform a)

theorem Steady.performAll (hs : s.Steady) (acts : List ServerAct) :
    (s.performAll acts).Steady := by
  unfold LiveServer.performAll
  split
  · exact hs
  · unfold settle
    split
    · exact (hs.performs acts).listened
    · exact hs.performs acts

theorem Steady.afterWrite (hs : s.Steady) (message : Json) : (s.afterWrite message).Steady := by
  unfold LiveServer.afterWrite receive
  split
  · have hreceived : Steady { s with received := s.received ++ [message] } :=
      ⟨hs.orderly, hs.attended, hs.writer⟩
    exact hreceived.performAll _
  · exact hs

theorem Steady.request (hs : s.Steady) (call : Lsp.Call) : (s.request call).2.Steady := by
  have hmoves := moves_sendRequest (P := fun _ => True) s.connection call.method call.params
  have hsent := hs.sent hmoves (sendRequest_listening ..)
  unfold LiveServer.request
  generalize s.connection.sendRequest call.method call.params = r at hsent
  obtain ⟨fault | id, c⟩ := r
  · exact hsent
  · dsimp only at hsent ⊢
    exact hsent.afterWrite _

theorem Steady.notify (hs : s.Steady) (call : Lsp.Call) : (s.notify call).2.Steady := by
  have hmoves := moves_sendNotification (P := fun _ => True) s.connection call.method call.params
  have hsent := hs.sent hmoves (sendNotification_listening ..)
  unfold LiveServer.notify
  generalize s.connection.sendNotification call.method call.params = r at hsent
  obtain ⟨fault | u, c⟩ := r
  · exact hsent
  · dsimp only at hsent ⊢
    exact hsent.afterWrite _

/-- Whatever a client does keeps a server steady. -/
theorem steady_kept : Peer.Keeps Steady where
  request call _ hs := hs.request call
  notify call _ hs := hs.notify call
  record _ _ hs := hs.sent (moves_recordAll (P := fun _ => True) ..) ⟨rfl, rfl⟩

/-- Before the client listens nothing is taken of what a server writes. -/
theorem idle_performAll (hidle : s.connection.listener = .idle) (acts : List ServerAct) :
    (s.performAll acts).connection.listener = .idle := by
  have hperforms : (acts.foldl LiveServer.perform s).connection.listener = .idle := by
    induction acts generalizing s with
    | nil => exact hidle
    | cons a acts ih =>
      refine ih ?_
      cases a with
      | emit bytes =>
        change (Connection.feed _ bytes).listener = .idle
        rw [Connection.feed, listen_of_ne (by simp [hidle])]
        exact hidle
      | _ => exact hidle
  unfold LiveServer.performAll
  split
  · exact hidle
  · unfold settle
    split
    · change (Connection.finish _).listener = .idle
      rw [Connection.finish, listen_of_ne (by simp [hperforms])]
      exact hperforms
    · exact hperforms

theorem future_perform (s : LiveServer) (a : ServerAct) :
    Future s.connection (s.perform a).connection := by
  cases a with
  | emit bytes => exact (moves_feed s.connection bytes).future
  | exit code => exact .refl
  | deafen text => exact .single (.inr ⟨some (.broken text), rfl⟩)

theorem future_performAll (s : LiveServer) (acts : List ServerAct) :
    Future s.connection (s.performAll acts).connection := by
  have hperforms : Future s.connection (acts.foldl LiveServer.perform s).connection := by
    induction acts generalizing s with
    | nil => exact .refl
    | cons a acts ih => exact (future_perform s a).trans (ih _)
  unfold LiveServer.performAll
  split
  · exact .refl
  · unfold settle
    split
    · exact hperforms.trans (moves_finish _).future
    · exact hperforms

/-- What a server does never makes writing fail in another way. -/
theorem writer_performAll (hwriter : ∀ kind text, s.connection.writer ≠ some (.other kind text))
    (acts : List ServerAct) (kind text : String) :
    (s.performAll acts).connection.writer ≠ some (.other kind text) := by
  have hperforms : (acts.foldl LiveServer.perform s).connection.writer ≠
      some (.other kind text) := by
    induction acts generalizing s with
    | nil => exact hwriter kind text
    | cons a acts ih =>
      refine ih fun kind text => ?_
      cases a with
      | emit bytes =>
        change (s.connection.feed bytes).writer ≠ _
        rw [(moves_feed s.connection bytes).writer]
        exact hwriter kind text
      | exit code => exact hwriter kind text
      | deafen text => simp [LiveServer.perform]
  unfold LiveServer.performAll
  split
  · exact hwriter kind text
  · unfold settle
    split
    · change (Connection.finish _).writer ≠ _
      rw [(moves_finish _).writer]
      exact hperforms
    · exact hperforms

/-- A server that has just been started is steady, whatever it did at once. -/
theorem steady_connect (server : Server) (child : Child) (journal : List Entry) :
    (connect server child journal).Steady := by
  unfold connect
  dsimp only
  generalize hidle : LiveServer.mk server child _ _ = idle
  have horderly : idle.connection.Orderly := by
    subst hidle
    exact ⟨fun _ => rfl, nofun, by simp, by simp⟩
  have hlistener := idle_performAll (s := idle) (by subst hidle; rfl) server.onStart
  have hwriter := writer_performAll (s := idle) (by subst hidle; simp) server.onStart
  have hfuture := future_performAll idle server.onStart
  generalize idle.performAll server.onStart = started at hlistener hwriter hfuture
  have hstart := moves_start started.connection
  refine ⟨hstart.orderly (hfuture.orderly horderly), ?_, hstart.writer ▸ hwriter⟩
  dsimp only
  rw [Connection.start, hlistener]
  exact attended_listen (by simp)

/-! ## How messages are lost -/

/-- The message that something to be sent is, if it is the request with the given number. -/
def messageOf (id : Nat) : Outgoing → Json
  | .request call => requestMessage id call.method call.params
  | .notification call => notificationMessage call.method call.params

/-- The parameters of a call are the deepest that its message has. -/
theorem nesting_messageOf (id : Nat) (o : Outgoing) : (messageOf id o).nesting ≤ 8 := by
  have hparams : ∀ call : Lsp.Call, Json.nestingFields (paramsField call.params) ≤ 7 := by
    intro call
    have hshallow := call.shallow
    unfold paramsField
    split
    · simp [Json.nestingFields]
    · simp [Json.nestingFields]
    · next v _ hv => simpa [Json.nestingFields] using hshallow v hv
  cases o with
  | request call =>
    have hcall := hparams call
    simp only [messageOf, requestMessage, Json.nesting, Json.nestingFields]
    omega
  | notification call =>
    have hcall := hparams call
    simp only [messageOf, notificationMessage, Json.nesting, Json.nestingFields]
    omega

/-- The ways in which something that is sent next is lost. -/
inductive Loses (s : LiveServer) : Outgoing → Prop
  /-- The connection was closed before. -/
  | closed (o : Outgoing) (h : s.connection.calls.isClosed = true) : Loses s o
  /-- Writing the message fails. -/
  | unwritten (o : Outgoing)
      (h : (s.connection.sendFault? (messageOf s.connection.calls.nextId o)).isSome = true) :
      Loses s o
  /-- What the server does upon the request ends the stream, or breaks it, before there is a
  response. -/
  | severed (call : Lsp.Call) {acts : List ServerAct} (hruns : s.child.status = none)
      (hacts : s.server.onMessage s.received
        (messageOf s.connection.calls.nextId (.request call)) = acts)
      (h : Frame.Severed s.connection.reader (fun m => ¬ Answers s.connection.calls.nextId m)
        (ServerAct.ends acts) s.connection.inbound.stage
        (s.connection.inbound.bytes ++ ServerAct.written acts)) :
      Loses s (.request call)

/-- The stream that a server makes threatens a request until it is there. -/
theorem threatened_performs {acts : List ServerAct}
    (h : s.connection.Threatened id atEnd (ServerAct.written acts)) :
    (acts.foldl LiveServer.perform s).connection.Threatened id atEnd [] := by
  induction acts generalizing s with
  | nil => exact h
  | cons a acts ih =>
    refine ih ?_
    cases a with
    | emit bytes => exact Threatened.feed h
    | exit code => exact h
    | deafen text => exact h.congr rfl rfl rfl rfl rfl

theorem status_performs (s : LiveServer) (acts : List ServerAct) :
    (acts.foldl LiveServer.perform s).child.status.isSome =
      (s.child.status.isSome || ServerAct.ends acts) := by
  induction acts generalizing s with
  | nil => simp [ServerAct.ends]
  | cons a acts ih =>
    rw [List.foldl_cons, ih]
    cases a <;> simp [LiveServer.perform, Child.exit, ServerAct.ends]

/-- A request is lost by what the server does. -/
theorem performAll_loses (hs : s.Steady) (hruns : s.child.status = none) {acts : List ServerAct}
    (h : s.connection.Threatened id (ServerAct.ends acts) (ServerAct.written acts)) :
    (s.performAll acts).connection.calls.isClosed = true ∧
      ∃ l, (s.performAll acts).connection.outcome? id = some (.lost l) := by
  have hthreatened := threatened_performs h
  have hsteady := hs.performs acts
  have hstatus := status_performs s acts
  unfold LiveServer.performAll
  rw [if_neg (by simp [hruns])]
  unfold settle
  rw [hstatus, hruns]
  cases hends : ServerAct.ends acts with
  | false =>
    rw [hends] at hthreatened
    exact hthreatened.lost hsteady.orderly hsteady.attended
  | true =>
    rw [hends] at hthreatened
    exact hthreatened.finish hsteady.orderly

theorem replyTo_of_lost {c : Connection Sink} {l : Loss} (h : c.outcome? id = some (.lost l)) :
    replyTo c id = .lost l := by
  rw [replyTo, h]

theorem afterWrite_of_some {message : Json} {fault : StreamFault}
    (h : s.connection.sendFault? message = some fault) : s.afterWrite message = s := by
  rw [LiveServer.afterWrite, h]

theorem afterWrite_of_none {message : Json} (h : s.connection.sendFault? message = none) :
    s.afterWrite message = { s with received := s.received ++ [message] }.performAll
      (s.server.onMessage s.received message) := by
  rw [LiveServer.afterWrite, h]
  rfl

/-- Sending a call only fails in the way that closes the connection. -/
theorem Steady.broken (hs : s.Steady) {o : Outgoing} {fault : StreamFault}
    (h : s.connection.sendFault? (messageOf id o) = some fault) : ∃ text, fault = .broken text := by
  unfold sendFault? writeFault? at h
  rw [if_neg (Nat.not_lt.2 ((nesting_messageOf id o).trans s.connection.depths.canSend))] at h
  split at h
  · cases h
    exact ⟨_, rfl⟩
  · cases fault with
    | broken text => exact ⟨text, rfl⟩
    | other kind text => exact absurd h (hs.writer kind text)

/-- A request gets its number even if it cannot be written. -/
theorem Steady.numbered (hs : s.Steady) (hopen : s.connection.calls.closed = none)
    (call : Lsp.Call) :
    ∃ c, s.connection.sendRequest call.method call.params =
      (.ok s.connection.calls.nextId, c) := by
  cases hwrites : s.connection.sendFault?
      (requestMessage s.connection.calls.nextId call.method call.params) with
  | none => exact ⟨_, sendRequest_of_written hopen hwrites⟩
  | some fault =>
    obtain ⟨text, rfl⟩ := hs.broken (o := .request call) hwrites
    exact ⟨_, sendRequest_of_broken hopen hwrites⟩

/-- A request that cannot be written is lost. -/
theorem request_unwritten (hs : s.Steady) (hopen : s.connection.calls.closed = none)
    {fault : StreamFault}
    (h : s.connection.sendFault? (messageOf s.connection.calls.nextId (.request call)) =
      some fault) :
    (∃ l, (s.request call).1 = .lost l) ∧
      (s.request call).2.connection.calls.isClosed = true := by
  obtain ⟨text, rfl⟩ := hs.broken h
  -- what cannot be written does not reach the server
  have hstill : (s.withConnection ((s.connection.requesting call.method).shutdown
      s!"write failed: {text}")).connection.sendFault?
        (requestMessage s.connection.calls.nextId call.method call.params) =
          some (.broken text) := by
    change sendFault? (shutdown _ _) _ = _
    rw [sendFault?, writeFault?, shutdown_writer, shutdown_depths]
    exact h
  unfold LiveServer.request
  rw [sendRequest_of_broken hopen h]
  dsimp only
  rw [afterWrite_of_some hstill]
  obtain ⟨l, hl⟩ := Unanswered.shutdown (.inl (owes_requesting hopen hs.orderly.numbered _))
    s!"write failed: {text}"
  exact ⟨⟨l, replyTo_of_lost hl⟩, isClosed_shutdown ..⟩

/-- A request that was written is under way, with the stream that the listener waits for. -/
theorem threatened_asked (hs : s.Steady) (hopen : s.connection.calls.closed = none)
    (call : Lsp.Call) {more : List UInt8}
    (h : Frame.Severed s.connection.reader (fun m => ¬ Answers s.connection.calls.nextId m) atEnd
      s.connection.inbound.stage (s.connection.inbound.bytes ++ more)) :
    (s.connection.asked call.method call.params).Threatened s.connection.calls.nextId atEnd
      more := by
  have howes := owes_requesting hopen hs.orderly.numbered call.method
  refine ⟨.inl ⟨howes.open, howes.pending, howes.unsettled⟩, ?_⟩
  change s.connection.listener = .stopped ∨ s.connection.listener = .running ∧
    Follows s.connection.inbound.supply atEnd more ∧ Frame.Severed _ _ atEnd
      s.connection.inbound.stage (s.connection.inbound.bytes ++ more)
  have hstarted := hs.attended.started
  cases hl : s.connection.listener with
  | idle => exact absurd hl hstarted
  | stopped => exact .inl rfl
  | running =>
    obtain ⟨hsupply, -⟩ := hs.attended.waits hl
    exact .inr ⟨rfl, hsupply ▸ .more .., h⟩

/-- A request is lost when the server ends its stream or breaks it. -/
theorem request_severed (hs : s.Steady) (hopen : s.connection.calls.closed = none)
    (h : s.connection.sendFault? (messageOf s.connection.calls.nextId (.request call)) = none)
    (hruns : s.child.status = none) {acts : List ServerAct}
    (hacts : s.server.onMessage s.received
      (messageOf s.connection.calls.nextId (.request call)) = acts)
    (hsevered : Frame.Severed s.connection.reader (fun m => ¬ Answers s.connection.calls.nextId m)
      (ServerAct.ends acts) s.connection.inbound.stage
      (s.connection.inbound.bytes ++ ServerAct.written acts)) :
    (∃ l, (s.request call).1 = .lost l) ∧
      (s.request call).2.connection.calls.isClosed = true := by
  subst hacts
  have hsent := hs.sent
    (moves_sendRequest (P := fun _ => True) s.connection call.method call.params)
    (sendRequest_listening ..)
  unfold LiveServer.request
  rw [sendRequest_of_written hopen h] at hsent ⊢
  dsimp only at hsent ⊢
  have hthreatened := threatened_asked hs hopen call hsevered
  generalize hasked : s.connection.asked call.method call.params = c at hsent hthreatened ⊢
  have hwritten : c.sendFault?
      (requestMessage s.connection.calls.nextId call.method call.params) = none := hasked ▸ h
  have hreceived : Steady { s.withConnection c with received := s.received ++
      [requestMessage s.connection.calls.nextId call.method call.params] } :=
    ⟨hsent.orderly, hsent.attended, hsent.writer⟩
  rw [afterWrite_of_none (s := s.withConnection c) hwritten]
  obtain ⟨hclosed, l, hl⟩ := performAll_loses hreceived hruns hthreatened
  exact ⟨⟨l, replyTo_of_lost hl⟩, hclosed⟩

/-- **A request that is lost is lost with the connection.** -/
theorem request_lost (hs : s.Steady) (h : s.Loses (.request call)) :
    (∃ l, (s.request call).1 = .lost l) ∧
      (s.request call).2.connection.calls.isClosed = true := by
  by_cases hclosed : s.connection.calls.isClosed = true
  · unfold LiveServer.request
    rw [sendRequest_of_closed hclosed]
    exact ⟨⟨_, rfl⟩, hclosed⟩
  have hopen := CallTable.closed_of_not_isClosed hclosed
  cases hwrites :
      s.connection.sendFault? (messageOf s.connection.calls.nextId (.request call)) with
  | some fault => exact request_unwritten hs hopen hwrites
  | none =>
    cases h with
    | closed _ h => exact absurd h hclosed
    | unwritten _ h => simp [hwrites] at h
    | severed _ hruns hacts h => exact request_severed hs hopen hwrites hruns hacts h

/-- **A notification that is lost is lost with the connection.** -/
theorem notify_lost (hs : s.Steady) (h : s.Loses (.notification call)) :
    (∃ l, (s.notify call).1 = .error (.failure (.lost l))) ∧
      (s.notify call).2.connection.calls.isClosed = true := by
  unfold LiveServer.notify
  by_cases hclosed : s.connection.calls.isClosed = true
  · rw [sendNotification_of_closed hclosed]
    exact ⟨⟨_, rfl⟩, hclosed⟩
  obtain ⟨fault, hfault⟩ : ∃ fault, s.connection.sendFault?
      (notificationMessage call.method call.params) = some fault := by
    cases h with
    | closed _ h => exact absurd h hclosed
    | unwritten _ h => exact Option.isSome_iff_exists.1 h
  have hbroken : s.connection.sendFault? (messageOf 0 (.notification call)) = some fault := hfault
  obtain ⟨text, rfl⟩ := hs.broken hbroken
  obtain ⟨hlost, hshut⟩ := sendNotification_of_broken hclosed hfault
  generalize s.connection.sendNotification call.method call.params = r at hlost hshut
  obtain ⟨fault | u, d⟩ := r
  · cases hlost
    exact ⟨⟨_, rfl⟩, hshut⟩
  · cases hlost

/-! ## Nothing else goes wrong -/

theorem replyTo_ne_raised (c : Connection Sink) (id : Nat) (kind : String) (text : Text) :
    replyTo c id ≠ .raised kind text := by
  unfold replyTo
  split <;> simp

theorem request_ne_raised (hs : s.Steady) (call : Lsp.Call) (kind : String) (text : Text) :
    (s.request call).1 ≠ .raised kind text := by
  unfold LiveServer.request
  by_cases hclosed : s.connection.calls.isClosed = true
  · rw [sendRequest_of_closed hclosed]
    simp [replyOfFault, cannotSend]
  · have hopen := CallTable.closed_of_not_isClosed hclosed
    obtain ⟨c, hc⟩ := hs.numbered hopen call
    rw [hc]
    dsimp only
    exact replyTo_ne_raised _ _ _ _

theorem lost_of_notify (hs : s.Steady) {call : Lsp.Call} {fault : Fault}
    (h : (s.notify call).1 = .error fault) : ∃ l, fault = .failure (.lost l) := by
  have hloses : s.Loses (.notification call) := by
    by_contra hkept
    have hopen : ¬ s.connection.calls.isClosed = true := fun hclosed => hkept (.closed _ hclosed)
    have hwritten : s.connection.sendFault? (notificationMessage call.method call.params) = none :=
      Option.not_isSome_iff_eq_none.1 fun hfault => hkept (.unwritten _ hfault)
    have hsent := sendNotification_of_written hopen hwritten
    unfold LiveServer.notify at h
    generalize s.connection.sendNotification call.method call.params = r at h hsent
    obtain ⟨fault | u, c⟩ := r <;> cases hsent
    cases h
  obtain ⟨⟨l, hl⟩, -⟩ := notify_lost hs hloses
  exact ⟨l, Except.error.inj (h.symm.trans hl)⟩

/-- Nothing goes wrong with a server but that it is lost. -/
theorem steady_plain : Peer.Plain Steady where
  request call _ kind text hs := request_ne_raised hs call kind text
  notify call s fault hs h := by
    obtain ⟨l, rfl⟩ := lost_of_notify hs h
    rfl

end LiveServer

end SymbolAtlas
