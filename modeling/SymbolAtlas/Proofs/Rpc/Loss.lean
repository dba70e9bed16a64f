import SymbolAtlas.Proofs.Rpc.Moves

/-!
# Losing a connection

A request that is under way when the stream of the server comes to an end, or when something in it
cannot be read, is lost with the connection. Nothing that is done until then gives it another end,
unless it is its response. A lost connection stays lost.

* `Frame.Severed` — a stream that comes to an end, or to something unreadable, in front of the
  messages that are waited for;
* `Connection.Answers` — the responses to a request;
* `Connection.Unanswered` — a request that is under way or lost, kept by
  `Connection.Moves.unanswered`;
* `Connection.Threatened` — a connection that will lose a request, whatever portions the rest of its
  stream arrives in, with `Connection.Threatened.feed` and `Connection.Threatened.finish`;
* `Connection.Future` — what may become of a connection, with `Connection.Future.cannotSend`.
-/

namespace SymbolAtlas

namespace Frame

/-- The stream goes on with messages in `P` and console output up to its end, or up to something
that cannot be read; `atEnd` says that no bytes follow. -/
inductive Severed (reader : Reader) (P : Json.Object → Prop) (atEnd : Bool) :
    Stage → List UInt8 → Prop
  /-- The stream is over, possibly in the middle of a message. -/
  | ended {stage : Stage} {bytes : List UInt8} (h : step reader stage bytes atEnd = .ended) :
      Severed reader P atEnd stage bytes
  /-- What follows cannot be read. -/
  | bad {stage : Stage} {bytes rest : List UInt8} {fault : BodyFault}
      (h : step reader stage bytes atEnd = .bad fault rest) : Severed reader P atEnd stage bytes
  | onward {stage stage' : Stage} {bytes rest : List UInt8}
      (h : step reader stage bytes atEnd = .onward stage' rest)
      (hrest : Severed reader P atEnd stage' rest) : Severed reader P atEnd stage bytes
  | console {stage : Stage} {bytes rest : List UInt8} {text : String}
      (h : step reader stage bytes atEnd = .console text rest)
      (hrest : Severed reader P atEnd (.headers none) rest) : Severed reader P atEnd stage bytes
  | message {stage : Stage} {bytes rest : List UInt8} {m : Json.Object}
      (h : step reader stage bytes atEnd = .message m rest) (hm : P m)
      (hrest : Severed reader P atEnd (.headers none) rest) : Severed reader P atEnd stage bytes

/-- The reading stops here. -/
def Found.Stops : Found → Prop
  | .ended | .bad _ _ => True
  | _ => False

/-- Every message that was found is in `P`. -/
def Found.Within (P : Json.Object → Prop) (found : Found) : Prop :=
  ∀ m rest, found = .message m rest → P m

theorem Severed.cases {reader : Reader} {P : Json.Object → Prop} {i : Inbound} {atEnd : Bool}
    (h : Severed reader P atEnd i.stage i.bytes) {found : Found}
    (hfound : step reader i.stage i.bytes atEnd = found) :
    found ≠ .waiting ∧ found.Within P ∧
      (found.Stops ∨ Severed reader P atEnd (i.after found).stage (i.after found).bytes) := by
  cases h with
  | ended h =>
    rw [h] at hfound
    exact hfound ▸ ⟨nofun, nofun, .inl trivial⟩
  | bad h =>
    rw [h] at hfound
    exact hfound ▸ ⟨nofun, nofun, .inl trivial⟩
  | onward h hrest =>
    rw [h] at hfound
    exact hfound ▸ ⟨nofun, nofun, .inr hrest⟩
  | console h hrest =>
    rw [h] at hfound
    exact hfound ▸ ⟨nofun, nofun, .inr hrest⟩
  | message h hm hrest =>
    rw [h] at hfound
    subst hfound
    refine ⟨nofun, fun m' rest' hm' => ?_, .inr hrest⟩
    cases hm'
    exact hm

end Frame

namespace Connection

variable {σ : Type} {P : Json.Object → Prop} {c d : Connection σ} {id : Nat}

/-! ## A request without an answer -/

/-- The message is a response to the request. -/
def Answers (id : Nat) (m : Json.Object) : Prop :=
  ∃ v, errand m = .response v ∧ v.asInt? = some (id : Int)

/-- The id of the message means another request, or none. -/
def Misses (id : Nat) (m : Json.Object) : Prop :=
  (Json.fieldOrNull m "id").asInt? ≠ some (id : Int)

theorem misses_of_not_answers {m : Json.Object} (hm : ¬ Answers id m) {v : Json}
    (h : errand m = .response v) : Misses id m := by
  intro hint
  rw [fieldOrNull_id h] at hint
  exact hm ⟨v, h, hint⟩

/-- The request is under way. -/
structure Owes (c : Connection σ) (id : Nat) : Prop where
  «open» : c.calls.closed = none
  pending : id ∈ c.calls.pending
  unsettled : ∀ s ∈ c.settled, s.1 ≠ id

/-- The request is under way, or it was lost. -/
def Unanswered (c : Connection σ) (id : Nat) : Prop :=
  c.Owes id ∨ ∃ l, c.outcome? id = some (.lost l)

/-- A request that is under way is lost when the connection is closed. -/
theorem Unanswered.shutdown (h : c.Unanswered id) (reason : String) :
    ∃ l, (c.shutdown reason).outcome? id = some (.lost l) := by
  obtain ⟨hopen, hpending, hunsettled⟩ | ⟨l, hl⟩ := h
  · exact ⟨_, outcome?_shutdown hopen hpending hunsettled reason⟩
  · exact ⟨l, outcome?_of_prefix (quiet_shutdown c reason).settled hl⟩

theorem Move.unanswered (h : Move (Misses id) c d) (hc : c.Unanswered id) : d.Unanswered id := by
  have hlost : (∃ l, c.outcome? id = some (.lost l)) → d.Unanswered id := by
    rintro ⟨l, hl⟩
    exact .inr ⟨l, outcome?_of_prefix h.settled hl⟩
  obtain howes | hl := hc
  · cases h with
    | react | read | start => exact .inl ⟨howes.open, howes.pending, howes.unsettled⟩
    | register h =>
      obtain ⟨-, -, rfl⟩ := CallTable.register_eq_some_iff.1 h
      exact .inl ⟨howes.open, List.mem_append_left _ howes.pending, howes.unsettled⟩
    | write depth m =>
      obtain ⟨-, h⟩ | ⟨text, h⟩ | ⟨kind, text, h⟩ := c.write_cases depth m <;> rw [h]
      · exact .inl ⟨howes.open, howes.pending, howes.unsettled⟩
      · exact .inr (Unanswered.shutdown (.inl howes) _)
      · exact .inl howes
    | resolve m hm =>
      unfold Connection.resolve
      dsimp only
      split
      · exact .inl ⟨howes.open, howes.pending, howes.unsettled⟩
      · next k calls htake =>
        obtain ⟨-, hint, rfl⟩ := CallTable.take_eq_some htake
        have hne : k ≠ id := by
          rintro rfl
          exact hm hint
        refine .inl ⟨howes.open, (List.mem_erase_of_ne hne.symm).2 howes.pending, fun s hs => ?_⟩
        obtain hs | hs := List.mem_append.1 hs
        · exact howes.unsettled s hs
        · rw [List.mem_singleton.1 hs]
          exact hne
    | shutdown reason => exact .inr (Unanswered.shutdown (.inl howes) _)
    | stop reason => exact .inr (Unanswered.shutdown (.inl howes) reason)
  · exact hlost hl

theorem Moves.unanswered (h : Moves (Misses id) c d) (hc : c.Unanswered id) : d.Unanswered id := by
  induction h with
  | refl => exact hc
  | tail _ hmove ih => exact hmove.unanswered ih

/-- A request of a closed connection that was not answered was lost. -/
theorem Unanswered.lost (h : c.Unanswered id) (hclosed : c.calls.isClosed = true) :
    ∃ l, c.outcome? id = some (.lost l) := by
  obtain howes | hlost := h
  · simp [CallTable.isClosed, howes.open] at hclosed
  · exact hlost

/-! ## A stream that will be severed -/

/-- The listener stops where the reading does. -/
theorem act_listener_of_stops {found : Frame.Found} (h : found.Stops) :
    (c.act found).listener = .stopped := by
  cases found with
  | ended => rfl
  | bad fault rest => cases fault <;> rfl
  | _ => cases h

theorem moves_act_of_within {found : Frame.Found} (h : found.Within fun m => ¬ Answers id m) :
    Moves (Misses id) c (c.act found) :=
  moves_act c fun m rest _ hfound herrand => misses_of_not_answers (h m rest hfound) herrand

/-- What is known of the bytes that follow those that are there: any may, or none do. -/
inductive Follows : Supply → Bool → List UInt8 → Prop
  | more (atEnd : Bool) (bytes : List UInt8) : Follows .open atEnd bytes
  | nothing : Follows .over true []

/-- The request is not answered yet, and with the bytes that are still to come it never will be. -/
structure Threatened (id : Nat) (atEnd : Bool) (more : List UInt8) (c : Connection σ) : Prop where
  unanswered : c.Unanswered id
  severed : c.listener = .stopped ∨
    c.listener = .running ∧ Follows c.inbound.supply atEnd more ∧
      Frame.Severed c.reader (fun m => ¬ Answers id m) atEnd c.inbound.stage
        (c.inbound.bytes ++ more)

variable {atEnd : Bool} {more bytes : List UInt8}

/-- The step that is found is the one that is found when all the bytes are there. -/
theorem step_of_follows (h : Follows c.inbound.supply atEnd more) (hf : c.found ≠ .waiting) :
    Frame.step c.reader c.inbound.stage (c.inbound.bytes ++ more) atEnd = c.found.extend more := by
  unfold Connection.found at hf ⊢
  generalize c.inbound.supply = supply at h hf ⊢
  cases h with
  | more => exact Frame.step_append rfl hf more atEnd
  | nothing =>
    rw [List.append_nil, Frame.Found.extend_nil]
    rfl

/-- A step of the listener does not avert it. -/
theorem Threatened.advance (h : c.Threatened id atEnd more) (hrunning : c.listener = .running)
    (hd : c.advance = some d) : d.Threatened id atEnd more := by
  obtain hstopped | ⟨-, hfollows, hsevered⟩ := h.severed
  · rw [hrunning] at hstopped
    cases hstopped
  have hf : c.found ≠ .waiting := by
    intro hwaiting
    obtain ⟨fault, hfailing, -⟩ := advance_of_waiting hwaiting hd
    rw [hfailing] at hfollows
    cases hfollows
  have hsupply := advance_supply hd
  rw [advance_of_ne hf] at hd
  obtain rfl := Option.some.inj hd
  obtain ⟨-, hwithin, hafter⟩ := Frame.Severed.cases
    (i := c.inbound.extend more c.inbound.supply) hsevered (step_of_follows hfollows hf)
  have hwithin' : c.found.Within fun m => ¬ Answers id m := by
    intro m rest hm
    refine hwithin m (rest ++ more) ?_
    rw [hm]
    rfl
  have hmoves : Moves (Misses id) c ((c.act c.found).withInbound (c.inbound.after c.found)) :=
    (moves_act_of_within hwithin').tail (.read _)
  refine ⟨hmoves.unanswered h.unanswered, ?_⟩
  rw [hmoves.reader]
  have hstarted := hmoves.started (by simp [hrunning])
  generalize hl : ((c.act c.found).withInbound (c.inbound.after c.found)).listener = l at hstarted
  cases l with
  | idle => exact absurd rfl hstarted
  | stopped => exact .inl rfl
  | running =>
    refine .inr ⟨rfl, hsupply ▸ hfollows, ?_⟩
    rw [Inbound.after_extend] at hafter
    obtain hstops | hrest := hafter
    · have hstops' : c.found.Stops := by
        generalize c.found = found at hstops
        cases found <;> exact hstops
      have hstopped : (c.act c.found).listener = .running := hl
      rw [act_listener_of_stops hstops'] at hstopped
      cases hstopped
    · exact hrest

theorem Threatened.listen (h : c.Threatened id atEnd more) : c.listen.Threatened id atEnd more := by
  induction c using listen_induction with
  | stopped c hstopped => rwa [listen_of_ne hstopped]
  | waits c _ hwaits => rwa [listen_of_advance_none hwaits]
  | step c d hrunning hd ih =>
    rw [listen_eq_of_advance hrunning hd]
    exact ih (h.advance hrunning hd)

/-- What leaves the calls, the listener and its bytes alone does not avert it. -/
theorem Threatened.congr (h : c.Threatened id atEnd more) (hcalls : d.calls = c.calls)
    (hsettled : d.settled = c.settled) (hlistener : d.listener = c.listener)
    (hinbound : d.inbound = c.inbound) (hdepths : d.depths = c.depths) :
    d.Threatened id atEnd more where
  unanswered := by
    obtain howes | ⟨l, hl⟩ := h.unanswered
    · exact .inl ⟨hcalls ▸ howes.open, hcalls ▸ howes.pending, hsettled ▸ howes.unsettled⟩
    · refine .inr ⟨l, ?_⟩
      rw [outcome?, hsettled]
      exact hl
  severed := by
    rw [hlistener, hinbound, Connection.reader, hdepths]
    exact h.severed

/-- A portion of the stream arrives. -/
theorem Threatened.feed (h : c.Threatened id atEnd (bytes ++ more)) :
    (c.feed bytes).Threatened id atEnd more := by
  refine Threatened.listen ⟨?_, ?_⟩
  · exact Moves.unanswered (.single (.read _)) h.unanswered
  · obtain hstopped | ⟨hrunning, hfollows, hsevered⟩ := h.severed
    · exact .inl hstopped
    · rw [← List.append_assoc] at hsevered
      refine .inr ⟨hrunning, ?_, hsevered⟩
      dsimp only
      generalize c.inbound.supply = supply at hfollows ⊢
      generalize hall : bytes ++ more = all at hfollows
      cases hfollows with
      | more => exact .more ..
      | nothing =>
        obtain ⟨-, rfl⟩ := List.append_eq_nil_iff.1 hall
        exact .nothing

theorem Unanswered.lost_of_stopped (h : c.Unanswered id) (horderly : c.Orderly)
    (hstopped : c.listener = .stopped) :
    c.calls.isClosed = true ∧ ∃ l, c.outcome? id = some (.lost l) :=
  ⟨horderly.stopped hstopped, h.lost (horderly.stopped hstopped)⟩

/-- A request is lost when the stream turns out to be unreadable. -/
theorem Threatened.lost (h : c.Threatened id false []) (horderly : c.Orderly)
    (hattended : c.Attended) :
    c.calls.isClosed = true ∧ ∃ l, c.outcome? id = some (.lost l) := by
  obtain hstopped | ⟨hrunning, -, hsevered⟩ := h.severed
  · exact h.unanswered.lost_of_stopped horderly hstopped
  · obtain ⟨hopen, hwaiting⟩ := hattended.waits hrunning
    rw [found, hopen] at hwaiting
    rw [List.append_nil] at hsevered
    exact absurd hwaiting (Frame.Severed.cases hsevered rfl).1

/-- A request is lost when the stream ends. -/
theorem Threatened.finish (h : c.Threatened id true []) (horderly : c.Orderly) :
    c.finish.calls.isClosed = true ∧ ∃ l, c.finish.outcome? id = some (.lost l) := by
  have hover : Threatened id true []
      (c.withInbound { c.inbound with supply := .over }) := by
    refine ⟨Moves.unanswered (.single (.read _)) h.unanswered, ?_⟩
    obtain hstopped | ⟨hrunning, -, hsevered⟩ := h.severed
    · exact .inl hstopped
    · exact .inr ⟨hrunning, .nothing, hsevered⟩
  have hfinish : Threatened id true [] c.finish := hover.listen
  have hstarted : c.listener ≠ .idle := by
    obtain hstopped | ⟨hrunning, -⟩ := h.severed <;> simp [*]
  exact hfinish.unanswered.lost_of_stopped ((moves_finish c).orderly horderly)
    (stopped_finish hstarted)

/-! ## What is lost stays lost -/

/-- What may become of a connection: any operation is used, and how its writes go may change. -/
abbrev Future : Connection σ → Connection σ → Prop :=
  Relation.ReflTransGen fun c d =>
    Move (fun _ => True) c d ∨ ∃ fault, d = { c with writer := fault }

theorem Future.closed (h : Future c d) (hclosed : c.calls.isClosed = true) :
    d.calls.isClosed = true := by
  induction h with
  | refl => exact hclosed
  | tail _ hstep ih =>
    obtain hmove | ⟨fault, rfl⟩ := hstep
    · exact hmove.closed ih
    · exact ih

theorem Moves.future (h : Moves P c d) : Future c d := by
  induction h with
  | refl => exact .refl
  | tail _ hmove ih => exact ih.tail (.inl hmove.anyway)

theorem Future.orderly (h : Future c d) (hc : c.Orderly) : d.Orderly := by
  induction h with
  | refl => exact hc
  | tail _ hstep ih =>
    obtain hmove | ⟨fault, rfl⟩ := hstep
    · exact hmove.orderly ih
    · exact ⟨ih.sealed, ih.stopped, ih.numbered.pending, ih.numbered.settled⟩

theorem Future.settled (h : Future c d) : c.settled <+: d.settled := by
  induction h with
  | refl => exact List.prefix_rfl
  | tail _ hstep ih =>
    obtain hmove | ⟨fault, rfl⟩ := hstep
    · exact ih.trans hmove.settled
    · exact ih

theorem sendRequest_of_closed (h : c.calls.isClosed = true) (method : String)
    (params : Option Json) : c.sendRequest method params = (.error (c.cannotSend method), c) := by
  rw [sendRequest, CallTable.register_eq_none_iff.2 h]

theorem sendNotification_of_closed (h : c.calls.isClosed = true) (method : String)
    (params : Option Json) :
    c.sendNotification method params = (.error (c.cannotSend method), c) := by
  rw [sendNotification, if_pos h]

/-- Nothing can be sent on a closed connection any more, whatever becomes of it. -/
theorem Future.cannotSend (h : Future c d) (hclosed : c.calls.isClosed = true) (method : String)
    (params : Option Json) :
    (d.sendRequest method params).1 = .error (d.cannotSend method) ∧
      (d.sendNotification method params).1 = .error (d.cannotSend method) := by
  have hd := h.closed hclosed
  rw [sendRequest_of_closed hd, sendNotification_of_closed hd]
  exact ⟨rfl, rfl⟩

end Connection

end SymbolAtlas
