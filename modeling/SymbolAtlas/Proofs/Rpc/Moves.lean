import SymbolAtlas.Proofs.Rpc.Outbound
import SymbolAtlas.Proofs.Rpc.Pushes

/-!
# What a connection is made to do

Every operation of a connection, of the client as of the listener, is made of a few moves. What each
of them keeps is kept by whatever is done to the connection.

* `Connection.Move` — the moves, the messages that may be taken for responses being given;
* `Connection.Moves` — any number of them, with one lemma for each operation up to
  `Connection.moves_listen`;
* `Connection.Move.settled`, `Connection.Move.closed` — what has ended stays ended, and what is
  closed stays closed;
* `Connection.Orderly` — what holds of every connection that was used from the beginning, with
  `Connection.Moves.orderly`;
* `Connection.Attended` — a connection whose listener has taken all it can, with
  `Connection.attended_listen`.
-/

namespace SymbolAtlas.Connection

variable {σ : Type} {P : Json.Object → Prop} {c d e : Connection σ}

/-! ## Moves -/

/-- What the operations of a connection are made of. A message is only taken for a response if
`P` holds of it. -/
inductive Move (P : Json.Object → Prop) (c : Connection σ) : Connection σ → Prop
  /-- The owner has reacted, and journal entries were made. -/
  | react (owner : σ) (journal : List Entry) :
      Move P c { c with owner := owner, journal := journal }
  /-- Bytes have arrived or were read. -/
  | read (i : Inbound) : Move P c (c.withInbound i)
  | start (h : c.listener = .idle) : Move P c { c with listener := .running }
  | register {id : Nat} {calls : CallTable} (h : c.calls.register = some (id, calls)) :
      Move P c { c with calls := calls }
  | write (depth : Nat) (m : Json) : Move P c (c.write depth m).2
  | resolve (m : Json.Object) (h : P m) : Move P c (c.resolve m)
  | shutdown (reason : String) : Move P c (c.shutdown reason)
  | stop (reason : String) : Move P c (c.stop reason)

/-- It is a move whatever may be taken for a response. -/
theorem Move.anyway (h : Move P c d) : Move (fun _ => True) c d := by
  cases h with
  | react owner journal => exact .react owner journal
  | read i => exact .read i
  | start h => exact .start h
  | register h => exact .register h
  | write depth m => exact .write depth m
  | resolve m h => exact .resolve m trivial
  | shutdown reason => exact .shutdown reason
  | stop reason => exact .stop reason

/-- Any number of moves. -/
abbrev Moves (P : Json.Object → Prop) : Connection σ → Connection σ → Prop :=
  Relation.ReflTransGen (Move P)

/-! ## The operations -/

theorem moves_recordAll (c : Connection σ) (es : List Entry) : Moves P c (c.recordAll es) :=
  .single (.react c.owner _)

theorem moves_sendRequest (c : Connection σ) (method : String) (params : Option Json) :
    Moves P c (c.sendRequest method params).2 := by
  unfold sendRequest
  split
  · exact .refl
  · next id calls hregister =>
    have hregistered : Moves P c { c with calls := calls } := .single (.register hregister)
    dsimp only
    rw [record]
    generalize hd : ({ c with calls := calls } : Connection σ).recordAll _ = d
    have hwritten := (hregistered.trans (hd ▸ moves_recordAll ..)).tail
      (.write d.depths.send (requestMessage id method params))
    generalize d.write _ _ = r at hwritten
    obtain ⟨_ | _ | _, e⟩ := r <;> exact hwritten

theorem moves_sendNotification (c : Connection σ) (method : String) (params : Option Json) :
    Moves P c (c.sendNotification method params).2 := by
  unfold sendNotification
  split
  · exact .refl
  · dsimp only
    rw [record]
    generalize hd : c.recordAll _ = d
    have hwritten : Moves P c (d.write d.depths.send (notificationMessage method params)).2 :=
      .tail (hd ▸ moves_recordAll ..) (.write ..)
    generalize d.write _ _ = r at hwritten
    obtain ⟨_ | _ | _, e⟩ := r <;> exact hwritten

theorem moves_close (c : Connection σ) (reason : String) : Moves P c (c.close reason) :=
  .single (.shutdown reason)

theorem moves_respond (c : Connection σ) (method : Text) (params : Json) :
    Moves P c (c.respond method params).2 := by
  unfold respond
  split
  · exact .refl
  · dsimp only
    split <;> exact .single (.react ..)

theorem moves_answer (c : Connection σ) (id : Json) (method : Text) (params : Json) :
    Moves P c (c.answer id method params).2 := by
  have hresponded := moves_respond (P := P) c method params
  unfold answer
  generalize c.respond method params = r at hresponded
  obtain ⟨field, d⟩ := r
  dsimp only at hresponded ⊢
  have hwritten := hresponded.tail
    (.write d.depths.answer (.obj [("jsonrpc", .str "2.0"), ("id", id), field]))
  generalize d.write _ _ = w at hwritten
  obtain ⟨_ | _ | _, e⟩ := w
  · exact hwritten
  · exact hwritten.trans (moves_recordAll ..)
  · exact hwritten

theorem moves_handOn (c : Connection σ) (method : Text) (params : Json) :
    Moves P c (c.handOn method params) := by
  unfold handOn
  split
  · exact .refl
  · dsimp only
    split <;> exact .single (.react ..)

theorem moves_dispatch (c : Connection σ) {m : Json.Object}
    (hm : ∀ id, errand m = .response id → P m) :
    Moves P c (c.dispatch m).2 := by
  rw [dispatch_eq]
  split
  · exact moves_answer ..
  · exact moves_handOn ..
  · next id herrand => exact .single (.resolve m (hm id herrand))
  · exact moves_recordAll ..

theorem moves_hear (c : Connection σ) (line : String) : Moves P c (c.hear line).2 := by
  unfold hear
  split
  · exact .refl
  · dsimp only
    split <;> exact .single (.react ..)

theorem moves_stopFor (c : Connection σ) (fault : StreamFault) : Moves P c (c.stopFor fault) := by
  cases fault with
  | broken text => exact .single (.stop _)
  | other kind text => exact (moves_recordAll ..).tail (.stop _)

theorem moves_stopIf {r : Option StreamFault × Connection σ} (h : Moves P c r.2) :
    Moves P c (stopIf r) := by
  obtain ⟨_ | fault, d⟩ := r
  · exact h
  · exact h.trans (moves_stopFor d fault)

theorem moves_act (c : Connection σ) {found : Frame.Found}
    (hfound : ∀ m rest id, found = .message m rest → errand m = .response id → P m) :
    Moves P c (c.act found) := by
  cases found with
  | waiting => exact .refl
  | onward stage rest => exact .refl
  | ended => exact .single (.stop _)
  | console text rest => exact moves_stopIf (moves_hear ..)
  | message m rest => exact moves_stopIf (moves_dispatch c fun id => hfound m rest id rfl)
  | bad fault rest =>
    cases fault with
    | frame e => exact .single (.stop _)
    | length e => exact moves_stopFor c (.other e.kind e.text)
    | longInteger => exact .single (.stop _)

/-- Whatever the listener takes. -/
theorem moves_listen (c : Connection σ) : Moves (fun _ => True) c c.listen := by
  induction c using listen_induction with
  | stopped c h => rw [listen_of_ne h]
  | waits c _ h => rw [listen_of_advance_none h]
  | step c d hrunning h ih =>
    rw [listen_eq_of_advance hrunning h]
    refine .trans ?_ ih
    by_cases hf : c.found = .waiting
    · obtain ⟨fault, -, rfl⟩ := advance_of_waiting hf h
      exact moves_stopFor ..
    · rw [advance_of_ne hf] at h
      obtain rfl := Option.some.inj h
      exact (moves_act c fun _ _ _ _ _ => trivial).tail (.read _)

theorem moves_start (c : Connection σ) : Moves (fun _ => True) c c.start := by
  unfold start
  split
  · next hidle => exact .head (.start hidle) (moves_listen _)
  · exact .refl

theorem moves_feed (c : Connection σ) (bytes : List UInt8) :
    Moves (fun _ => True) c (c.feed bytes) :=
  .head (.read _) (moves_listen _)

theorem moves_finish (c : Connection σ) : Moves (fun _ => True) c c.finish :=
  .head (.read _) (moves_listen _)

/-! ## What every move keeps -/

theorem Move.settled (h : Move P c d) : c.settled <+: d.settled := by
  have hshutdown := fun reason => (quiet_shutdown c reason).settled
  cases h with
  | write depth m =>
    obtain ⟨-, h⟩ | ⟨text, h⟩ | ⟨kind, text, h⟩ := c.write_cases depth m
    · simp [h]
    · simpa [h] using hshutdown _
    · simp [h]
  | resolve m => exact (quiet_resolve c m).settled
  | shutdown reason => exact hshutdown reason
  | stop reason => exact hshutdown reason
  | _ => exact List.prefix_rfl

theorem isClosed_shutdown (c : Connection σ) (reason : String) :
    (c.shutdown reason).calls.isClosed = true := by
  unfold shutdown
  split
  · next hshut => exact CallTable.shut_eq_none_iff.1 hshut
  · next hshut =>
    obtain ⟨-, -, rfl⟩ := CallTable.shut_eq_some_iff.1 hshut
    rfl

/-- A closed connection is not touched by closing it. -/
theorem shutdown_of_closed (h : c.calls.isClosed = true) (reason : String) :
    c.shutdown reason = c := by
  rw [shutdown, CallTable.shut_eq_none_iff.2 h]

theorem Move.closed (h : Move P c d) (hclosed : c.calls.isClosed = true) :
    d.calls.isClosed = true := by
  cases h with
  | register h => simp [CallTable.register, hclosed] at h
  | write depth m =>
    obtain ⟨-, h⟩ | ⟨text, h⟩ | ⟨kind, text, h⟩ := c.write_cases depth m <;> rw [h]
    · exact hclosed
    · exact isClosed_shutdown ..
    · exact hclosed
  | resolve m =>
    unfold Connection.resolve
    dsimp only
    split
    · exact hclosed
    · next htake =>
      obtain ⟨-, -, rfl⟩ := CallTable.take_eq_some htake
      exact hclosed
  | shutdown reason => exact isClosed_shutdown ..
  | stop reason => exact isClosed_shutdown c reason
  | _ => exact hclosed

@[simp] theorem shutdown_writer (c : Connection σ) (reason : String) :
    (c.shutdown reason).writer = c.writer := by
  unfold shutdown
  split <;> rfl

theorem Move.writer (h : Move P c d) : d.writer = c.writer := by
  cases h with
  | write depth m =>
    obtain ⟨-, h⟩ | ⟨text, h⟩ | ⟨kind, text, h⟩ := c.write_cases depth m <;> simp [h]
  | resolve m =>
    unfold Connection.resolve
    dsimp only
    split <;> rfl
  | shutdown reason => exact shutdown_writer ..
  | stop reason => exact shutdown_writer c reason
  | _ => rfl

/-- Nothing that a connection does changes how its writes go. -/
theorem Moves.writer (h : Moves P c d) : d.writer = c.writer := by
  induction h with
  | refl => rfl
  | tail _ hmove ih => exact hmove.writer.trans ih

theorem Move.depths (h : Move P c d) : d.depths = c.depths := by
  cases h with
  | write depth m => exact c.write_depths depth m
  | resolve m =>
    unfold Connection.resolve
    dsimp only
    split <;> rfl
  | shutdown reason => exact c.shutdown_depths reason
  | stop reason => exact c.stop_depths reason
  | _ => rfl

/-- Nothing that a connection does changes how deep its messages may nest. -/
theorem Moves.depths (h : Moves P c d) : d.depths = c.depths := by
  induction h with
  | refl => rfl
  | tail _ hmove ih => exact hmove.depths.trans ih

theorem Moves.reader (h : Moves P c d) : d.reader = c.reader := by
  rw [Connection.reader, h.depths, Connection.reader]

/-! ## Order -/

/-- What holds of every connection that was used from the beginning. -/
structure Orderly (c : Connection σ) : Prop where
  /-- Nothing is pending once the connection is closed. -/
  sealed : c.calls.isClosed = true → c.calls.pending = []
  /-- The listener does not stop without closing the connection. -/
  stopped : c.listener = .stopped → c.calls.isClosed = true
  numbered : c.Numbered

theorem orderly_shutdown (h : c.Orderly) (reason : String) : (c.shutdown reason).Orderly where
  sealed hclosed := by
    by_cases hc : c.calls.isClosed = true
    · rw [shutdown_of_closed hc]
      exact h.sealed hc
    · have hopen := CallTable.closed_of_not_isClosed hc
      rw [shutdown, CallTable.shut_eq_some_iff.2 ⟨hopen, rfl, rfl⟩]
      rfl
  stopped _ := isClosed_shutdown ..
  numbered := (quiet_shutdown c reason).numbered h.numbered

theorem Move.orderly (h : Move P c d) (hc : c.Orderly) : d.Orderly := by
  cases h with
  | react | read => exact ⟨hc.sealed, hc.stopped, ⟨hc.numbered.pending, hc.numbered.settled⟩⟩
  | start => exact ⟨hc.sealed, nofun, ⟨hc.numbered.pending, hc.numbered.settled⟩⟩
  | register h =>
    obtain ⟨hopen, rfl, rfl⟩ := CallTable.register_eq_some_iff.1 h
    have hunclosed : c.calls.isClosed = false := CallTable.isClosed_eq_false_iff.2 hopen
    exact
      { sealed := fun h => absurd h (by simp [CallTable.isClosed, hopen])
        stopped := fun h => absurd (hc.stopped h) (by simp [hunclosed])
        numbered := hc.numbered.registered (c := c) rfl rfl }
  | write depth m =>
    obtain ⟨-, h⟩ | ⟨text, h⟩ | ⟨kind, text, h⟩ := c.write_cases depth m <;> rw [h]
    · exact ⟨hc.sealed, hc.stopped, ⟨hc.numbered.pending, hc.numbered.settled⟩⟩
    · exact orderly_shutdown hc _
    · exact hc
  | resolve m =>
    have hnumbered := (quiet_resolve c m).numbered hc.numbered
    unfold Connection.resolve at hnumbered ⊢
    dsimp only at hnumbered ⊢
    split at hnumbered
    · exact ⟨hc.sealed, hc.stopped, hnumbered⟩
    · next htake =>
      obtain ⟨hpending, -, rfl⟩ := CallTable.take_eq_some htake
      refine ⟨fun hclosed => ?_, hc.stopped, hnumbered⟩
      simp [hc.sealed hclosed] at hpending
  | shutdown reason => exact orderly_shutdown hc reason
  | stop reason =>
    have h := orderly_shutdown hc reason
    exact ⟨h.sealed, fun _ => isClosed_shutdown c reason, ⟨h.numbered.pending, h.numbered.settled⟩⟩

theorem Moves.orderly (h : Moves P c d) (hc : c.Orderly) : d.Orderly := by
  induction h with
  | refl => exact hc
  | tail _ hmove ih => exact hmove.orderly ih

/-! ## Attendance -/

/-- The listener was started, and it has taken all it can. -/
structure Attended (c : Connection σ) : Prop where
  started : c.listener ≠ .idle
  waits : c.listener = .running → c.inbound.supply = .open ∧ c.found = .waiting

/-- Without a step to take, the listener waits for more of a stream that goes on. -/
theorem waiting_of_advance_none (h : c.advance = none) :
    c.inbound.supply = .open ∧ c.found = .waiting := by
  have hf : c.found = .waiting := by
    by_contra hne
    rw [advance_of_ne hne] at h
    cases h
  refine ⟨?_, hf⟩
  cases hsupply : c.inbound.supply with
  | «open» => rfl
  | «over» =>
    rw [found, hsupply] at hf
    exact absurd hf Frame.step_ne_waiting
  | failing fault =>
    rw [found] at hf
    rw [advance, hf] at h
    simp [hsupply] at h

theorem Move.started (h : Move P c d) (hstarted : c.listener ≠ .idle) : d.listener ≠ .idle := by
  cases h with
  | start h => exact absurd h hstarted
  | write depth m => simpa using hstarted
  | resolve m =>
    unfold Connection.resolve
    dsimp only
    split <;> exact hstarted
  | shutdown reason => simpa using hstarted
  | stop reason => exact nofun
  | _ => exact hstarted

theorem Moves.started (h : Moves P c d) (hstarted : c.listener ≠ .idle) : d.listener ≠ .idle := by
  induction h with
  | refl => exact hstarted
  | tail _ hmove ih => exact hmove.started ih

theorem attended_listen (hstarted : c.listener ≠ .idle) : c.listen.Attended where
  started := (moves_listen c).started hstarted
  waits hrunning := by
    induction c using listen_induction with
    | stopped c h =>
      rw [listen_of_ne h] at hrunning
      exact absurd hrunning h
    | waits c _ h =>
      rw [listen_of_advance_none h]
      exact waiting_of_advance_none h
    | step c d hrun h ih =>
      rw [listen_eq_of_advance hrun h] at hrunning ⊢
      refine ih (fun hidle => ?_) hrunning
      rw [listen_of_ne (by simp [hidle]), hidle] at hrunning
      cases hrunning

/-- What leaves the listener and its bytes alone leaves it attending. -/
theorem Attended.congr (h : c.Attended) (hlistener : d.listener = c.listener)
    (hinbound : d.inbound = c.inbound) (hdepths : d.depths = c.depths) : d.Attended where
  started := hlistener ▸ h.started
  waits hrunning := by
    rw [found, hinbound, Connection.reader, hdepths]
    exact h.waits (hlistener ▸ hrunning)

/-- A listener that was started stops when the stream is over. -/
theorem stopped_finish (hstarted : c.listener ≠ .idle) : c.finish.listener = .stopped := by
  have hattended : c.finish.Attended := attended_listen hstarted
  cases hl : c.finish.listener with
  | idle => exact absurd hl hattended.started
  | stopped => rfl
  | running =>
    obtain ⟨hopen, -⟩ := hattended.waits hl
    rw [finish, listen_supply] at hopen
    cases hopen

end SymbolAtlas.Connection
