import SymbolAtlas.Proofs.Rpc.Completion
import SymbolAtlas.Proofs.Rpc.Listener

/-!
# A connection's own schedule

`Connection` runs its two sides one after the other: an operation of the client is over before the
listener goes on. This is one of the schedules of `Interleaving`: whatever is done to a connection,
some schedule leads to a world with the same call table, the same outcomes and the same messages
written. So what holds in every reachable world holds of every connection.

* `Shows` — a world agrees with a connection, both threads being at rest;
* `Used` — the connections that the operations lead to;
* `Used.exists_world` — each of them is shown by a reachable world.
-/

namespace SymbolAtlas.Interleaving

open Connection

variable {σ : Type} {w w' : World} {c : Connection σ} {t : Thread} {p : Place}

/-- A world and a connection have the same call table, outcomes and written messages. -/
structure Agrees (w : World) (c : Connection σ) : Prop where
  calls : w.calls = c.calls
  settled : w.completions = c.settled
  sent : w.written = c.sent

/-- A world agrees with a connection, both threads being at rest. -/
structure Shows (w : World) (c : Connection σ) : Prop extends Agrees w c where
  client : w.place .client = .free
  listener : w.place .listener = if c.listener = .stopped then .over else .free

@[simp] theorem World.written_go (w : World) (t : Thread) (p : Place) :
    (w.go t p).written = w.written := rfl

theorem World.written_act (w : World) (t : Thread) (p : Place) (calls : CallTable) (e : Event) :
    (w.act t p calls e).written = w.written ++ e.written?.toList := by
  cases h : e.written? <;> simp [written, h]

theorem Agrees.go (h : Agrees w c) (t : Thread) (p : Place) : Agrees (w.go t p) c :=
  ⟨h.calls, h.settled, h.sent⟩

theorem Agrees.congr {τ : Type} {d : Connection τ} (h : Agrees w c) (hc : d.calls = c.calls)
    (hs : d.settled = c.settled) (hw : d.sent = c.sent) : Agrees w d :=
  ⟨h.calls.trans hc.symm, h.settled.trans hs.symm, h.sent.trans hw.symm⟩

/-! ## Closing -/

/-- A thread that holds requests of a closed table gives up all of them. -/
theorem steps_losing (hi : Inv w) {left : List Nat} {reason : String} {last : Bool}
    (h : w.place t = .losing left reason last) :
    ∃ w', Steps w w' ∧ w'.place = Function.update w.place t (.after last) ∧
      w'.calls = w.calls ∧ w'.written = w.written ∧
      w'.completions = w.completions ++ left.map fun id => (id, .lost (.aborted id reason)) := by
  induction left generalizing w with
  | nil =>
    exact ⟨w.go t (.after last), .single (.quiet (.lost t reason last h)), rfl, rfl, rfl, by simp⟩
  | cons id left ih =>
    have hheld : id ∈ w.held := World.mem_held.2 ⟨t, by simp [h, Place.held]⟩
    have hstep : Step w _ := .giveUp t id left reason last h (hi.not_mem_completed hheld)
    obtain ⟨w', hsteps, hplace, hcalls, hwritten, hcompl⟩ := ih (hstep.inv hi) (by simp)
    refine ⟨w', hsteps.head hstep, ?_, hcalls, ?_, ?_⟩
    · simpa using hplace
    · simpa [World.written_act, Event.written?] using hwritten
    · simpa [World.completions_act, Event.completion?] using hcompl

/-- A thread that is about to close the connection does what `Connection.shutdown` does. -/
theorem steps_closing (hi : Inv w) (ha : Agrees w c) {reason : String} {last : Bool}
    (h : w.place t = .closing reason last) :
    ∃ w', Steps w w' ∧ w'.place = Function.update w.place t (.after last) ∧
      Agrees w' (c.shutdown reason) := by
  cases hs : c.calls.shut reason with
  | none =>
    have hstep : Step w (w.go t (.after last)) :=
      .quiet (.shutBefore t reason last h (by rw [ha.calls, hs]))
    refine ⟨_, .single hstep, rfl, ?_⟩
    rw [shutdown, hs]
    exact ha.go t _
  | some r =>
    obtain ⟨left, calls⟩ := r
    have hstep : Step w _ := .shut t reason last h (by rw [ha.calls, hs])
    obtain ⟨w', hsteps, hplace, hcalls, hwritten, hcompl⟩ :=
      steps_losing (hstep.inv hi) (Function.update_self t _ _)
    refine ⟨w', hsteps.head hstep, by simpa using hplace, ?_⟩
    rw [shutdown, hs]
    refine ⟨hcalls, ?_, ?_⟩
    · simpa [World.completions_act, Event.completion?, ha.settled, record, recordAll] using hcompl
    · simpa [World.written_act, Event.written?, ha.sent, record, recordAll] using hwritten

/-! ## Writing -/

/-- A message that the thread has written is in both histories. -/
theorem steps_written (ha : Agrees w c) {message : Json} (h : w.place t = .writing message)
    (he : (Frame.encode? message).isSome) :
    ∃ w', Steps w w' ∧ w'.place = Function.update w.place t .free ∧
      Agrees w' { c with sent := c.sent ++ [message] } :=
  ⟨_, .single (.write t message h he), rfl, ha.calls,
    by simpa [World.completions_act, Event.completion?] using ha.settled,
    by simp [World.written_act, Event.written?, ha.sent]⟩

/-- A thread that finds the stream broken closes the connection and goes on. -/
theorem steps_broken (hi : Inv w) (ha : Agrees w c) {message : Json}
    (h : w.place t = .writing message) (text : String) :
    ∃ w', Steps w w' ∧ w'.place = Function.update w.place t .free ∧
      Agrees w' (c.shutdown s!"write failed: {text}") := by
  have hstep : Step w _ := .quiet (.broken t message text h)
  obtain ⟨w', hsteps, hplace, hagrees⟩ :=
    steps_closing (hstep.inv hi) (ha.go t _) (Function.update_self t _ _)
  exact ⟨w', hsteps.head hstep, by simpa [Place.after] using hplace, hagrees⟩

/-- A write of the client does what `Connection.write` does. -/
theorem steps_client_writing (hi : Inv w) (ha : Agrees w c) (depth : Nat) (message : Json)
    (h : w.place .client = .writing message) :
    ∃ w', Steps w w' ∧ w'.place = Function.update w.place .client .free ∧
      Agrees w' (c.write depth message).2 := by
  rcases c.write_cases depth message with ⟨he, hw⟩ | ⟨text, hw⟩ | ⟨kind, text, hw⟩ <;> rw [hw]
  · exact steps_written ha h he
  · exact steps_broken hi ha h text
  · exact ⟨_, .single (.quiet (.raise message h)), rfl, ha.go _ _⟩

/-- The listener stops, between two messages or because of a write. -/
theorem steps_stop (hi : Inv w) (ha : Agrees w c) (reason : String)
    (h : w.place .listener = .free ∨ ∃ message, w.place .listener = .writing message) :
    ∃ w', Steps w w' ∧ w'.place = Function.update w.place .listener .over ∧
      Agrees w' (c.stop reason) := by
  have hstep : Step w (w.go .listener (.closing reason true)) := by
    rcases h with h | ⟨message, h⟩
    · exact .quiet (.stop reason h)
    · exact .quiet (.fail message reason h)
  obtain ⟨w', hsteps, hplace, hagrees⟩ :=
    steps_closing (hstep.inv hi) (ha.go _ _) (Function.update_self _ _ _)
  exact ⟨w', hsteps.head hstep, by simpa [Place.after] using hplace,
    hagrees.congr rfl rfl rfl⟩

/-! ## The operations of the client -/

/-- A request that gets a number is written, whatever becomes of the write. -/
theorem sendRequest_snd {method : String} {params : Option Json} {id : Nat} {calls : CallTable}
    (hr : c.calls.register = some (id, calls)) :
    (c.sendRequest method params).2 = (({ c with calls := calls }.record .debug "rpc.request"
      [("method", .str method), ("id", .int id)]).write c.depths.send
        (requestMessage id method params)).2 := by
  rw [sendRequest, hr]
  dsimp only
  split
  · next heq => exact (congrArg Prod.snd heq).symm
  · next heq => exact (congrArg Prod.snd heq).symm

/-- A notification on an open connection is written, whatever becomes of the write. -/
theorem sendNotification_snd {method : String} {params : Option Json}
    (ho : c.calls.isClosed = false) :
    (c.sendNotification method params).2 = ((c.record .debug "rpc.notification"
      [("method", .str method)]).write c.depths.send (notificationMessage method params)).2 := by
  rw [sendNotification, if_neg (by simp [ho])]
  dsimp only
  split <;> (next heq => exact (congrArg Prod.snd heq).symm)

namespace Shows

/-- Only the client has moved, and is at rest again. -/
theorem of_client {d : Connection σ} (h : Shows w c) (ha : Agrees w' d)
    (hp : w'.place = Function.update w.place .client .free) (hl : d.listener = c.listener) :
    Shows w' d :=
  { ha with client := by simp [hp], listener := by simpa [hp, hl] using h.listener }

/-- Only the listener has moved, and rests where it should. -/
theorem of_listener {d : Connection σ} (h : Shows w c) (ha : Agrees w' d)
    (hp : w'.place = Function.update w.place .listener
      (if d.listener = .stopped then .over else .free)) : Shows w' d :=
  { ha with client := by simpa [hp] using h.client, listener := by simp [hp] }

theorem exists_sendRequest (hi : Inv w) (h : Shows w c) (method : String) (params : Option Json) :
    ∃ w', Steps w w' ∧ Shows w' (c.sendRequest method params).2 := by
  cases hr : c.calls.register with
  | none =>
    rw [sendRequest, hr]
    exact ⟨w, .refl, h⟩
  | some r =>
    obtain ⟨id, calls⟩ := r
    have hstep : Step w _ := .request method params h.client (by rw [h.calls, hr])
    have hagrees : Agrees (w.act .client (.writing (requestMessage id method params)) calls
        (.registered id)) ({ c with calls := calls }.record .debug "rpc.request"
          [("method", .str method), ("id", .int id)]) :=
      ⟨rfl, by simp [World.completions_act, Event.completion?, h.settled, record, recordAll],
        by simp [World.written_act, Event.written?, h.sent, record, recordAll]⟩
    obtain ⟨w', hsteps, hplace, hagrees'⟩ :=
      steps_client_writing (hstep.inv hi) hagrees c.depths.send
        (requestMessage id method params) (by simp)
    rw [sendRequest_snd hr]
    exact ⟨w', hsteps.head hstep,
      h.of_client hagrees' (by simpa using hplace) (write_listener ..)⟩

theorem exists_sendNotification (hi : Inv w) (h : Shows w c) (method : String)
    (params : Option Json) : ∃ w', Steps w w' ∧ Shows w' (c.sendNotification method params).2 := by
  cases ho : c.calls.isClosed with
  | true =>
    rw [sendNotification, if_pos ho]
    exact ⟨w, .refl, h⟩
  | false =>
    have hstep : Step w _ := .quiet (.notify method params h.client (by rw [h.calls, ho]))
    have hagrees : Agrees (w.go .client (.writing (notificationMessage method params)))
        (c.record .debug "rpc.notification" [("method", .str method)]) :=
      (h.toAgrees.go _ _).congr rfl rfl rfl
    obtain ⟨w', hsteps, hplace, hagrees'⟩ :=
      steps_client_writing (hstep.inv hi) hagrees c.depths.send
        (notificationMessage method params) (by simp)
    rw [sendNotification_snd ho]
    exact ⟨w', hsteps.head hstep,
      h.of_client hagrees' (by simpa using hplace) (write_listener ..)⟩

theorem exists_close (hi : Inv w) (h : Shows w c) (reason : String) :
    ∃ w', Steps w w' ∧ Shows w' (c.close reason) := by
  have hstep : Step w _ := .quiet (.close reason h.client)
  obtain ⟨w', hsteps, hplace, hagrees⟩ :=
    steps_closing (hstep.inv hi) (h.toAgrees.go _ _) (Function.update_self _ _ _)
  exact ⟨w', hsteps.head hstep,
    h.of_client hagrees (by simpa [Place.after] using hplace) (shutdown_listener c reason)⟩

end Shows

/-! ## The listener -/

namespace Shows

/-- Journal entries, the owner and what is still to be read make no difference. -/
theorem congr {d : Connection σ} (h : Shows w c) (hc : d.calls = c.calls)
    (hs : d.settled = c.settled) (hw : d.sent = c.sent) (hl : d.listener = c.listener) :
    Shows w d :=
  { h.toAgrees.congr hc hs hw with client := h.client, listener := by rw [hl, h.listener] }

theorem exists_stop (hi : Inv w) (h : Shows w c) (hr : c.listener = .running) (reason : String) :
    ∃ w', Steps w w' ∧ Shows w' (c.stop reason) := by
  obtain ⟨w', hsteps, hplace, hagrees⟩ :=
    steps_stop hi h.toAgrees reason (.inl (by simp [h.listener, hr]))
  exact ⟨w', hsteps, h.of_listener hagrees (by simpa [stop] using hplace)⟩

theorem exists_stopFor (hi : Inv w) (h : Shows w c) (hr : c.listener = .running)
    (fault : StreamFault) : ∃ w', Steps w w' ∧ Shows w' (c.stopFor fault) := by
  cases fault with
  | broken text => exact h.exists_stop hi hr _
  | other kind text =>
    have h' := h.congr (d := c.record .error "rpc.listener_failed" [("connection", .str c.name),
      ("error", .str s!"listener failed: {kind}: {text}")]) rfl rfl rfl rfl
    exact h'.exists_stop hi hr _

/-- A handler leaves the call table and what was written alone. -/
theorem respond_frame (c : Connection σ) (method : Text) (params : Json) :
    (c.respond method params).2.calls = c.calls ∧
      (c.respond method params).2.settled = c.settled ∧
      (c.respond method params).2.sent = c.sent ∧
      (c.respond method params).2.listener = c.listener := by
  unfold respond
  cases c.handlers.request with
  | none => exact ⟨rfl, rfl, rfl, rfl⟩
  | some handle =>
    dsimp only
    split <;> exact ⟨rfl, rfl, rfl, rfl⟩

/-- The listener answers a request of the other side. -/
theorem exists_answer (hi : Inv w) (h : Shows w c) (hr : c.listener = .running) (id : Json)
    (method : Text) (params : Json) :
    ∃ w', Steps w w' ∧ Shows w' (stopIf (c.answer id method params)) := by
  obtain ⟨hcalls, hsettled, hsent, hlistener⟩ := respond_frame c method params
  unfold answer
  generalize c.respond method params = r at hcalls hsettled hsent hlistener
  obtain ⟨field, d⟩ := r
  dsimp only at hcalls hsettled hsent hlistener ⊢
  have h' : Shows w d := h.congr hcalls hsettled hsent hlistener
  have hr' : d.listener = .running := hlistener.trans hr
  generalize hm : Json.obj [("jsonrpc", .str "2.0"), ("id", id), field] = m
  have hstep : Step w (w.go .listener (.writing m)) :=
    .quiet (hm ▸ .answer id field (by simp [h'.listener, hr']))
  have hagrees := h'.toAgrees.go .listener (.writing m)
  have hplace : (w.go .listener (.writing m)).place .listener = .writing m := by simp
  rcases d.write_cases d.depths.answer m with ⟨he, hw⟩ | ⟨text, hw⟩ | ⟨kind, text, hw⟩ <;> rw [hw]
  · obtain ⟨w', hsteps, hp, ha⟩ := steps_written hagrees hplace he
    exact ⟨w', hsteps.head hstep, h'.of_listener ha (by simpa [stopIf, hr'] using hp)⟩
  · obtain ⟨w', hsteps, hp, ha⟩ := steps_broken (hstep.inv hi) hagrees hplace text
    refine ⟨w', hsteps.head hstep, h'.of_listener (ha.congr rfl rfl rfl) ?_⟩
    simpa [stopIf, record, recordAll, hr'] using hp
  · have ha' : Agrees (w.go .listener (.writing m)) (d.record .error "rpc.listener_failed"
        [("connection", .str d.name), ("error", .str s!"listener failed: {kind}: {text}")]) :=
      hagrees.congr rfl rfl rfl
    obtain ⟨w', hsteps, hp, ha⟩ := steps_stop (hstep.inv hi) ha'
      s!"listener failed: {kind}: {text}" (.inr ⟨m, hplace⟩)
    exact ⟨w', hsteps.head hstep,
      h'.of_listener ha (by simpa [stopIf, stopFor, stop] using hp)⟩

/-- The listener completes the request of a response, if there is one. -/
theorem exists_resolve (h : Shows w c) (hr : c.listener = .running) (message : Json.Object) :
    ∃ w', Steps w w' ∧ Shows w' (c.resolve message) := by
  have hfree : w.place .listener = .free := by simp [h.listener, hr]
  have hreceive : Step w (w.go .listener (.answered message)) := .quiet (.receive message hfree)
  have hplace : (w.go .listener (.answered message)).place .listener = .answered message := by simp
  unfold resolve
  dsimp only
  cases ht : c.calls.take (Json.fieldOrNull message "id") with
  | none =>
    have hunknown := Step.quiet (Quiet.unknown message hplace (by simpa [h.calls] using ht))
    refine ⟨_, (Relation.ReflTransGen.single hreceive).tail hunknown, ?_⟩
    refine h.of_listener ((h.toAgrees.go _ _).go _ _ |>.congr rfl rfl rfl) ?_
    simp [record, recordAll, hr]
  | some r =>
    obtain ⟨k, calls⟩ := r
    have htake := Step.take message hplace (by simpa [h.calls] using ht)
    have hcomplete := Step.complete k message
      (w := (w.go .listener (.answered message)).act .listener (.resolving k message) calls
        (.took k message)) (by simp)
    refine ⟨_, ((Relation.ReflTransGen.single hreceive).tail htake).tail hcomplete, ?_⟩
    refine h.of_listener ⟨rfl, ?_, ?_⟩ ?_
    · simp [World.completions_act, Event.completion?, h.settled]
    · simp [World.written_act, Event.written?, h.sent]
    · simp [hr]

theorem exists_dispatch (hi : Inv w) (h : Shows w c) (hr : c.listener = .running)
    (message : Json.Object) : ∃ w', Steps w w' ∧ Shows w' (stopIf (c.dispatch message)) := by
  unfold dispatch
  split
  · dsimp only
    split
    · exact h.exists_answer hi hr _ _ _
    · refine ⟨w, .refl, ?_⟩
      unfold handOn
      split
      · exact h
      · dsimp only [stopIf]
        split <;> exact h.congr rfl rfl rfl rfl
  · split
    · exact h.exists_resolve hr message
    · exact ⟨w, .refl, h.congr rfl rfl rfl rfl⟩

theorem exists_hear (hi : Inv w) (h : Shows w c) (hr : c.listener = .running) (line : String) :
    ∃ w', Steps w w' ∧ Shows w' (stopIf (c.hear line)) := by
  unfold hear
  cases c.handlers.output with
  | none => exact ⟨w, .refl, h⟩
  | some handle =>
    dsimp only
    have h' : Shows w ({ c with owner := (handle line c.owner).owner }.recordAll
        (handle line c.owner).entries) := h.congr rfl rfl rfl rfl
    cases (handle line c.owner).result with
    | ok => exact ⟨w, .refl, h'⟩
    | error fault => exact h'.exists_stopFor hi hr fault

theorem withInbound (h : Shows w c) (i : Inbound) : Shows w (c.withInbound i) :=
  h.congr rfl rfl rfl rfl

/-- The listener acts on what it found. -/
theorem exists_act (hi : Inv w) (h : Shows w c) (hr : c.listener = .running)
    (found : Frame.Found) : ∃ w', Steps w w' ∧ Shows w' (c.act found) := by
  cases found with
  | waiting => exact ⟨w, .refl, h⟩
  | ended => exact h.exists_stop hi hr serverClosed
  | onward stage rest => exact ⟨w, .refl, h⟩
  | console text rest => exact h.exists_hear hi hr text
  | message m rest => exact h.exists_dispatch hi hr m
  | bad fault rest =>
    cases fault with
    | frame e => exact h.exists_stop hi hr _
    | length e => exact h.exists_stopFor hi hr (.other e.kind e.text)
    | longInteger => exact h.exists_stop hi hr _

theorem exists_advance (hi : Inv w) (h : Shows w c) (hr : c.listener = .running)
    {d : Connection σ} (hd : c.advance = some d) : ∃ w', Steps w w' ∧ Shows w' d := by
  by_cases hf : c.found = .waiting
  · obtain ⟨fault, -, rfl⟩ := advance_of_waiting hf hd
    exact h.exists_stopFor hi hr fault
  · rw [advance_of_ne hf] at hd
    obtain rfl := Option.some.inj hd
    obtain ⟨w', hsteps, hs⟩ := h.exists_act hi hr c.found
    exact ⟨w', hsteps, hs.withInbound _⟩

theorem exists_listen (hi : Inv w) (h : Shows w c) : ∃ w', Steps w w' ∧ Shows w' c.listen := by
  induction c using listen_induction generalizing w with
  | stopped c hne =>
    rw [listen_of_ne hne]
    exact ⟨w, .refl, h⟩
  | waits c _ hnone =>
    rw [listen_of_advance_none hnone]
    exact ⟨w, .refl, h⟩
  | step c d hrunning hadvance ih =>
    obtain ⟨w₁, hsteps₁, h₁⟩ := h.exists_advance hi hrunning hadvance
    obtain ⟨w₂, hsteps₂, h₂⟩ := ih (hsteps₁.inv hi) h₁
    rw [listen_eq_of_advance hrunning hadvance]
    exact ⟨w₂, hsteps₁.trans hsteps₂, h₂⟩

end Shows

/-! ## Any use of a connection -/

/-- The connections that the operations lead to, from a new one. Between two operations the stream
that is written to may break or be mended. -/
inductive Used : Connection σ → Prop
  | new (name : String) (handlers : Handlers σ) (owner : σ) :
      Used { name := name, handlers := handlers, owner := owner }
  | sendRequest {c : Connection σ} (method : String) (params : Option Json) (h : Used c) :
      Used (c.sendRequest method params).2
  | sendNotification {c : Connection σ} (method : String) (params : Option Json) (h : Used c) :
      Used (c.sendNotification method params).2
  | close {c : Connection σ} (reason : String) (h : Used c) : Used (c.close reason)
  | start {c : Connection σ} (h : Used c) : Used c.start
  | feed {c : Connection σ} (bytes : List UInt8) (h : Used c) : Used (c.feed bytes)
  | finish {c : Connection σ} (h : Used c) : Used c.finish
  | breakOff {c : Connection σ} (fault : StreamFault) (h : Used c) : Used (c.breakOff fault)
  | writer {c : Connection σ} (fault : Option StreamFault) (h : Used c) :
      Used { c with writer := fault }

/-- **Whatever is done to a connection is one of the schedules.** -/
theorem Used.exists_world (h : Used c) : ∃ w, Reachable w ∧ Shows w c := by
  -- the steps of one operation are put behind those of the operations before it
  have extend : ∀ {c d : Connection σ}, (∃ w, Reachable w ∧ Shows w c) →
      (∀ {w}, Inv w → Shows w c → ∃ w', Steps w w' ∧ Shows w' d) →
      ∃ w, Reachable w ∧ Shows w d := by
    rintro c d ⟨w, hw, hs⟩ step
    obtain ⟨w', hsteps, hs'⟩ := step hw.inv hs
    exact ⟨w', hw.trans hsteps, hs'⟩
  induction h with
  | new name handlers owner => exact ⟨{}, .refl, ⟨rfl, rfl, rfl⟩, rfl, rfl⟩
  | sendRequest method params _ ih =>
    exact extend ih fun hi hs => hs.exists_sendRequest hi method params
  | sendNotification method params _ ih =>
    exact extend ih fun hi hs => hs.exists_sendNotification hi method params
  | close reason _ ih => exact extend ih fun hi hs => hs.exists_close hi reason
  | @start c _ ih =>
    refine extend ih fun hi hs => ?_
    unfold Connection.start
    split
    · next hl =>
      have hs' : Shows _ { c with listener := .running } :=
        { hs.toAgrees.congr rfl rfl rfl with
          client := hs.client, listener := by simpa [hl] using hs.listener }
      exact hs'.exists_listen hi
    · exact ⟨_, .refl, hs⟩
  | feed bytes _ ih => exact extend ih fun hi hs => (hs.withInbound _).exists_listen hi
  | finish _ ih => exact extend ih fun hi hs => (hs.withInbound _).exists_listen hi
  | breakOff fault _ ih => exact extend ih fun hi hs => (hs.withInbound _).exists_listen hi
  | @writer c fault _ ih =>
    refine extend ih fun _ hs => ⟨_, .refl, ?_⟩
    exact hs.congr (d := { c with writer := fault }) rfl rfl rfl rfl

/-- However a connection is used, no request of it ends twice, and each one that was made either has
ended or is pending. -/
theorem Used.settled_once (h : Used c) : (c.settled.map Prod.fst).Nodup ∧
    ∀ id, 1 ≤ id → id < c.calls.nextId → id ∈ c.settled.map Prod.fst ∨ id ∈ c.calls.pending := by
  obtain ⟨w, hw, hs⟩ := h.exists_world
  have hi := hw.inv
  have hcompleted : w.completed = c.settled.map Prod.fst := congrArg _ hs.settled
  have hheld : w.held = [] := by
    rw [World.held, hs.client, hs.listener]
    split <;> rfl
  refine ⟨hcompleted ▸ hi.nodup_completed, fun id hpos hlt => ?_⟩
  have hid : id ∈ w.numbers := by
    rw [hi.numbers, List.mem_range'_1, hs.calls]
    omega
  rcases hi.situation hid with ⟨hwait, -⟩ | ⟨-, hh, -⟩ | ⟨-, -, hd⟩
  · exact .inr (hs.calls ▸ hwait.1)
  · obtain ⟨t, ht⟩ := hh.1.exists
    simpa [hheld] using World.mem_held.2 ⟨t, ht⟩
  · exact .inl (hcompleted ▸ hd)

end SymbolAtlas.Interleaving
