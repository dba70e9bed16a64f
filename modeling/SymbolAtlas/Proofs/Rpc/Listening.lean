import SymbolAtlas.Proofs.Rpc.FrameRoundTrip
import SymbolAtlas.Proofs.Rpc.Listener
import SymbolAtlas.Proofs.Rpc.Pushes

/-!
# A whole stream of a server

The listener of a connection whose owner is a sink handles the messages of a stream in order, each
by itself, and what ends the stream closes the connection and changes nothing else: the outcome is
a fold over the messages that can be read.

* `Ledger` — what the messages of a stream have an effect on;
* `Ledger.handle` — the effect of one message, and `Connection.Wired.dispatch` that it is no other;
* `Ledger.Folded` — the effect of a stream, message by message;
* `Connection.Wired.listen` — that it is no other;
* `Connection.listen_in_order` — what this means for the notices, the replies and the requests.
-/

namespace SymbolAtlas

/-- That a message can be answered, if it is a request, with so many calls left: in the answer its
id is nested one level more. -/
def Answerable (depth : Nat) (m : Json.Object) : Prop :=
  ∀ id ∈ requestId? m, id.nesting < depth

instance (depth : Nat) (m : Json.Object) : Decidable (Answerable depth m) :=
  inferInstanceAs (Decidable (∀ id ∈ requestId? m, id.nesting < depth))

/-- What the messages of a stream have an effect on. -/
structure Ledger where
  sink : Sink
  sent : List Json
  settled : List (Nat × Outcome)
  calls : CallTable

namespace Ledger

/-- The ledger with a line of console output. -/
def hear (l : Ledger) (texts : List String) : Ledger :=
  { l with sink := l.sink.hear texts }

/-- The ledger with a request that has ended, if there is one. -/
def settle (l : Ledger) (outcome : Outcome) : Option (Nat × CallTable) → Ledger
  | none => l
  | some (k, calls) => { l with settled := l.settled ++ [(k, outcome)], calls := calls }

/-- The effect of one message. -/
def handle (l : Ledger) (m : Json.Object) : Ledger :=
  match errand m with
  | .request id method params =>
    { l with
      sink := l.sink.after (asked? method params)
      sent := l.sent ++ [l.sink.reply id method params] }
  | .notification method params => { l with sink := l.sink.after (pushed? method params) }
  | .response id => l.settle (Connection.outcomeOf m) (l.calls.take id)
  | .unknown => l

/-- The effect of a notice, if there is one. -/
def note (l : Ledger) (n? : Option Notice) : Ledger :=
  { l with sink := l.sink.after n? }

/-- The effect of closing the connection: what is pending is lost. -/
def close (l : Ledger) (reason : String) : Ledger :=
  { l with
    settled := l.settled ++ l.calls.pending.map fun k => (k, Outcome.lost (.aborted k reason))
    calls := { l.calls with pending := [], closed := some reason } }

theorem handle_hear (l : Ledger) (texts : List String) (m : Json.Object) :
    (l.hear texts).handle m = (l.handle m).hear texts := by
  unfold handle
  cases errand m with
  | request id method params => simp only [hear, Sink.after_hear, Sink.reply_hear]
  | notification method params => simp only [hear, Sink.after_hear]
  | response id =>
    dsimp only [hear]
    cases l.calls.take id <;> rfl
  | unknown => rfl

theorem hear_nil (l : Ledger) : l.hear [] = l := by
  simp [hear, Sink.hear]

theorem hear_hear (l : Ledger) (ts us : List String) : (l.hear ts).hear us = l.hear (ts ++ us) := by
  simp [hear, Sink.hear]

theorem foldl_handle_hear (ms : List Json.Object) (l : Ledger) (texts : List String) :
    ms.foldl handle (l.hear texts) = (ms.foldl handle l).hear texts := by
  induction ms generalizing l with
  | nil => rfl
  | cons m ms ih => rw [List.foldl_cons, handle_hear, ih, List.foldl_cons]

end Ledger

namespace Connection

/-- The ledger of a connection. -/
def ledger (c : Connection Sink) : Ledger :=
  { sink := c.owner, sent := c.sent, settled := c.settled, calls := c.calls }

/-- An open connection whose owner handles all that arrives, and whose writes do not fail. -/
structure Wired (c : Connection Sink) : Prop where
  handlers : c.handlers = Sink.handlers
  writer : c.writer = none
  unclosed : c.calls.closed = none

variable {c : Connection Sink}

/-! ## One message -/

theorem exists_respond (h : c.handlers = Sink.handlers) (method : Text) (params : Json) :
    ∃ journal, c.respond method params = (c.owner.replyField method params,
      { c with owner := c.owner.after (asked? method params), journal := journal }) := by
  obtain ⟨howner, hresult⟩ := Sink.handleRequest_spec method params c.owner
  unfold respond Sink.replyField
  rw [h]
  dsimp only [Sink.handlers]
  rw [hresult, howner]
  cases c.owner.result method params <;> exact ⟨_, rfl⟩

theorem exists_handOn (h : c.handlers = Sink.handlers) (method : Text) (params : Json) :
    ∃ journal, c.handOn method params =
      { c with owner := c.owner.after (pushed? method params), journal := journal } := by
  have howner := Sink.handleNotification_owner method params c.owner
  unfold handOn
  rw [h]
  dsimp only [Sink.handlers]
  rw [howner]
  cases (Sink.handleNotification method params c.owner).result <;> exact ⟨_, rfl⟩

theorem write_of_scalar (h : c.writer = none) {m : Json} (hm : m.Scalar) {depth : Nat}
    (hdepth : m.nesting ≤ depth) :
    c.write depth m = (none, { c with sent := c.sent ++ [m] }) := by
  have hbytes : (Frame.encode? m).isNone = false := by
    simpa using Frame.encode?_isSome hm
  have hfault : c.writeFault? depth m = none := by
    rw [writeFault?, if_neg (Nat.not_lt.2 hdepth), hbytes, h]
    rfl
  rw [write, hfault]

theorem write_of_tooDeep {depth : Nat} {m : Json} (h : depth < m.nesting) :
    c.write depth m = (some tooDeep, c) := by
  have hfault : c.writeFault? depth m = some tooDeep := if_pos h
  rw [write, hfault]
  rfl

theorem exists_answer (h : c.Wired) {id : Json} (hid : id.Scalar)
    (hdepth : id.nesting < c.depths.answer) (method : Text) (params : Json) :
    ∃ journal, c.answer id method params = (none,
      { c with
        owner := c.owner.after (asked? method params)
        sent := c.sent ++ [c.owner.reply id method params]
        journal := journal }) := by
  obtain ⟨journal, hrespond⟩ := exists_respond h.handlers method params
  have hlevels : (c.owner.reply id method params).nesting ≤ c.depths.answer := by
    have hreply := c.owner.nesting_reply id method params
    have hroom := c.depths.canAnswer
    omega
  have hwrite := write_of_scalar
    (c := { c with owner := c.owner.after (asked? method params), journal := journal })
    h.writer (Sink.scalar_reply hid c.owner method params) hlevels
  rw [Sink.reply] at hwrite
  refine ⟨journal, ?_⟩
  unfold answer
  rw [hrespond]
  dsimp only
  rw [hwrite]
  rfl

/-- A request whose id is nested too deeply to be repeated is handled, but not answered. -/
theorem exists_answer_tooDeep (h : c.handlers = Sink.handlers) {id : Json}
    (hdepth : c.depths.answer ≤ id.nesting) (method : Text) (params : Json) :
    ∃ journal, c.answer id method params = (some tooDeep,
      { c with owner := c.owner.after (asked? method params), journal := journal }) := by
  obtain ⟨journal, hrespond⟩ := exists_respond h method params
  have hlevels : id.nesting < (c.owner.reply id method params).nesting :=
    Json.nesting_lt_of_get? (show Fields.get? _ (Text.ofString "id") = some id from rfl)
  have hwrite := write_of_tooDeep
    (c := { c with owner := c.owner.after (asked? method params), journal := journal })
    (Nat.lt_of_le_of_lt hdepth hlevels)
  rw [Sink.reply] at hwrite
  refine ⟨journal, ?_⟩
  unfold answer
  rw [hrespond]
  dsimp only
  rw [hwrite]
  rfl

theorem exists_resolve (m : Json.Object) {id : Json} (h : errand m = .response id) :
    ∃ d, c.resolve m = d ∧ d.ledger = c.ledger.settle (outcomeOf m) (c.calls.take id) ∧
      d.handlers = c.handlers ∧ d.writer = c.writer ∧ d.calls.closed = c.calls.closed ∧
      d.listener = c.listener := by
  refine ⟨_, rfl, ?_⟩
  unfold resolve
  rw [fieldOrNull_id h]
  dsimp only
  cases htake : c.calls.take id with
  | none => exact ⟨rfl, rfl, rfl, rfl, rfl⟩
  | some kc =>
    obtain ⟨k, calls⟩ := kc
    obtain ⟨-, -, hcalls⟩ := CallTable.take_eq_some htake
    exact ⟨rfl, rfl, rfl, by rw [hcalls], rfl⟩

/-- **A message has its effect on the ledger and no other**, if it can be answered. -/
theorem Wired.dispatch (h : c.Wired) {m : Json.Object}
    (hid : ∀ id ∈ requestId? m, id.Scalar) (hanswerable : Answerable c.depths.answer m) :
    ∃ d, c.dispatch m = (none, d) ∧ d.ledger = c.ledger.handle m ∧ d.Wired ∧
      d.listener = c.listener := by
  rw [dispatch_eq]
  unfold Ledger.handle
  unfold Answerable at hanswerable
  unfold requestId? at hid hanswerable
  cases herrand : errand m with
  | request id method params =>
    rw [herrand] at hid hanswerable
    obtain ⟨journal, hanswer⟩ :=
      exists_answer h (hid id rfl) (hanswerable id rfl) method params
    exact ⟨_, hanswer, rfl, ⟨h.handlers, h.writer, h.unclosed⟩, rfl⟩
  | notification method params =>
    obtain ⟨journal, hhand⟩ := exists_handOn h.handlers method params
    exact ⟨_, congrArg (Prod.mk none) hhand, rfl, ⟨h.handlers, h.writer, h.unclosed⟩, rfl⟩
  | response id =>
    obtain ⟨d, hd, hledger, hhandlers, hwriter, hclosed, hlistener⟩ :=
      exists_resolve (c := c) m herrand
    exact ⟨d, congrArg (Prod.mk none) hd, hledger, ⟨hhandlers.trans h.handlers,
      hwriter.trans h.writer, hclosed.trans h.unclosed⟩, hlistener⟩
  | unknown => exact ⟨_, rfl, rfl, ⟨h.handlers, h.writer, h.unclosed⟩, rfl⟩

/-- A request that cannot be answered comes to its notice, and then the listener fails. -/
theorem Wired.dispatch_tooDeep (h : c.Wired) {m : Json.Object}
    (hdeep : ¬ Answerable c.depths.answer m) :
    ∃ d, c.dispatch m = (some tooDeep, d) ∧ d.ledger = c.ledger.note (noticeOf? m) ∧
      d.calls.closed = none := by
  unfold Answerable requestId? at hdeep
  rw [dispatch_eq]
  unfold Ledger.note noticeOf?
  cases herrand : errand m with
  | request id method params =>
    rw [herrand] at hdeep
    have hlevels : c.depths.answer ≤ id.nesting := by
      by_contra hshallow
      exact hdeep fun id' hid' => by
        obtain rfl := Option.some.inj hid'
        omega
    obtain ⟨journal, hanswer⟩ := exists_answer_tooDeep h.handlers hlevels method params
    exact ⟨_, hanswer, rfl, h.unclosed⟩
  | _ => exact absurd (by simp [herrand]) hdeep

/-! ## The whole stream -/

@[simp] theorem withInbound_ledger (i : Inbound) : (c.withInbound i).ledger = c.ledger := rfl

/-- Why a fault of the listener closes the connection. -/
def faultReason : StreamFault → String
  | .broken text => s!"read failed: {text}"
  | .other kind text => s!"listener failed: {kind}: {text}"

/-- Why the connection is closed once nothing more is read. -/
def stopReason : Option Frame.BodyFault → String
  | none => serverClosed
  | some (.frame e) => s!"protocol error: {e.message}"
  | some (.length e) => s!"listener failed: {e.kind}: {e.text}"
  | some .longInteger => s!"read failed: {longIntegerMessage}"

end Connection

namespace Ledger

/-- What a stream makes of a ledger, with so many calls left for answers: the fold of its messages.
If some message cannot be answered, it is the fold of those before it, and the first such message is
the end. -/
structure Folded (depth : Nat) (t : Frame.Transcript) (l l' : Ledger) : Prop where
  all : (∀ m ∈ t.messages, Answerable depth m) →
    l' = ((t.messages.foldl handle l).hear t.output).close (Connection.stopReason t.fault)
  first : ∀ before m after, t.messages = before ++ m :: after →
    (∀ b ∈ before, Answerable depth b) → ¬ Answerable depth m →
    ∃ texts, texts <+: t.output ∧
      l' = (((before.foldl handle l).hear texts).note (noticeOf? m)).close
        (Connection.faultReason Connection.tooDeep)

namespace Folded

variable {depth : Nat} {t : Frame.Transcript} {l l' : Ledger} {m : Json.Object}

/-- A stream without messages closes the connection. -/
theorem of_no_messages (l : Ledger) (fault : Option Frame.BodyFault) (rest : List UInt8) :
    Folded depth ⟨[], [], fault, rest⟩ l (l.close (Connection.stopReason fault)) where
  all _ := by
    rw [hear_nil]
    rfl
  first := by simp

/-- A line of console output is heard whatever follows it. -/
theorem after_console {text : String} (h : Folded depth t (l.hear [text]) l') :
    Folded depth { t with output := [text] ++ t.output } l l' where
  all hanswerable := by rw [h.all hanswerable, foldl_handle_hear, hear_hear]
  first before m after hms hbefore hm := by
    obtain ⟨texts, hprefix, heq⟩ := h.first before m after hms hbefore hm
    rw [foldl_handle_hear, hear_hear] at heq
    exact ⟨text :: texts, List.cons_prefix_cons.2 ⟨rfl, hprefix⟩, heq⟩

/-- A message that can be answered is handled, and what follows it is next. -/
theorem after_message (hm : Answerable depth m) (h : Folded depth t (l.handle m) l') :
    Folded depth { t with messages := m :: t.messages } l l' where
  all hms := h.all fun m' hm' => hms m' (List.mem_cons_of_mem _ hm')
  first before m' after hms hbefore hm' := by
    cases before with
    | nil =>
      obtain rfl : m = m' := (List.cons.inj hms).1
      exact absurd hm hm'
    | cons b before =>
      obtain ⟨rfl, hlater⟩ := List.cons.inj hms
      exact h.first before m' after hlater
        (fun b' hb' => hbefore b' (List.mem_cons_of_mem _ hb')) hm'

/-- A message that cannot be answered comes to its notice, and nothing that follows is next. -/
theorem of_not_answerable (hm : ¬ Answerable depth m) (t : Frame.Transcript) (l : Ledger) :
    Folded depth { t with messages := m :: t.messages } l
      ((l.note (noticeOf? m)).close (Connection.faultReason Connection.tooDeep)) where
  all hms := absurd (hms m (List.mem_cons_self ..)) hm
  first before m' after hms hbefore hm' := by
    cases before with
    | nil =>
      obtain rfl : m = m' := (List.cons.inj hms).1
      exact ⟨[], List.nil_prefix, by rw [List.foldl_nil, hear_nil]⟩
    | cons b before =>
      obtain ⟨rfl, -⟩ := List.cons.inj hms
      exact absurd (hbefore m (List.mem_cons_self ..)) hm

end Folded

end Ledger

namespace Connection

variable {c : Connection Sink}

theorem ledger_shutdown (h : c.calls.closed = none) (reason : String) :
    (c.shutdown reason).ledger = c.ledger.close reason := by
  have hshut : c.calls.shut reason =
      some (c.calls.pending, { c.calls with closed := some reason, pending := [] }) :=
    CallTable.shut_eq_some_iff.2 ⟨h, rfl, rfl⟩
  unfold shutdown
  rw [hshut]
  rfl

theorem ledger_stopFor (h : c.calls.closed = none) (fault : StreamFault) :
    (c.stopFor fault).ledger = c.ledger.close (faultReason fault) := by
  cases fault with
  | broken text => exact ledger_shutdown h _
  | other kind text => exact ledger_shutdown (c := c.record _ _ _) h _

/-- Something that cannot be read closes the connection. -/
theorem act_bad (h : c.calls.closed = none) (e : Frame.BodyFault) (rest : List UInt8) :
    (c.act (.bad e rest)).ledger = c.ledger.close (stopReason (some e)) ∧
      (c.act (.bad e rest)).listener = .stopped := by
  cases e with
  | frame e => exact ⟨ledger_shutdown h _, rfl⟩
  | length e => exact ⟨ledger_stopFor h _, rfl⟩
  | longInteger => exact ⟨ledger_shutdown h _, rfl⟩

/-- A line of console output reaches the sink. -/
theorem exists_hear (h : c.handlers = Sink.handlers) (text : String) :
    ∃ journal, c.hear text =
      (none, { c with owner := c.owner.hear [text], journal := journal }) := by
  unfold hear
  rw [h]
  exact ⟨_, rfl⟩

theorem found_of_over (h : c.inbound.supply = .over) :
    c.found = Frame.step c.reader c.inbound.stage c.inbound.bytes true := by
  rw [found, h]
  rfl

/-- A listener that has stopped handles nothing any more. -/
theorem listen_withInbound_of_stopped (h : c.listener = .stopped) (i : Inbound) :
    (c.withInbound i).listen = c.withInbound i := by
  have hstopped : (c.withInbound i).listener = .stopped := h
  exact listen_of_ne (by rw [hstopped]; exact nofun)

/-- A line of console output has its effect on the ledger and no other. -/
theorem Wired.act_console (h : c.Wired) (text : String) (rest : List UInt8) :
    ∃ d, c.act (.console text rest) = d ∧ d.ledger = c.ledger.hear [text] ∧ d.Wired ∧
      d.listener = c.listener := by
  obtain ⟨journal, hhear⟩ := exists_hear h.handlers text
  refine ⟨{ c with owner := c.owner.hear [text], journal := journal }, ?_, rfl,
    ⟨h.handlers, h.writer, h.unclosed⟩, rfl⟩
  rw [act, hhear]
  rfl

/-- A message that can be answered has its effect on the ledger and no other. -/
theorem Wired.act_message (h : c.Wired) {m : Json.Object}
    (hid : ∀ id ∈ requestId? m, id.Scalar) (hanswerable : Answerable c.depths.answer m)
    (rest : List UInt8) :
    ∃ d, c.act (.message m rest) = d ∧ d.ledger = c.ledger.handle m ∧ d.Wired ∧
      d.listener = c.listener := by
  obtain ⟨d, hd, heffect⟩ := h.dispatch hid hanswerable
  refine ⟨d, ?_, heffect⟩
  rw [act, hd]
  rfl

/-- A message that cannot be answered stops the listener. -/
theorem Wired.act_tooDeep (h : c.Wired) {m : Json.Object} (hdeep : ¬ Answerable c.depths.answer m)
    (rest : List UInt8) :
    (c.act (.message m rest)).ledger =
        (c.ledger.note (noticeOf? m)).close (faultReason tooDeep) ∧
      (c.act (.message m rest)).listener = .stopped := by
  obtain ⟨d, hd, hledger, hunclosed⟩ := h.dispatch_tooDeep hdeep
  have hact : c.act (.message m rest) = d.stopFor tooDeep := by
    rw [act, hd]
    rfl
  rw [hact, ← hledger]
  exact ⟨ledger_stopFor hunclosed tooDeep, stopFor_listener _⟩

/-- **A stream is the fold of its messages**, from any stage of the reader on: each step of the
listener is a line, a message that is handled, or the end. -/
theorem Wired.listen (h : c.Wired) (hrunning : c.listener = .running)
    (hover : c.inbound.supply = .over) {t : Frame.Transcript}
    (ht : (Frame.readAt c.reader c.inbound.stage c.inbound.bytes).followed c.reader = t)
    (hids : ∀ m ∈ t.messages, ∀ id ∈ requestId? m, id.Scalar) :
    Ledger.Folded c.depths.answer t c.ledger c.listen.ledger ∧ c.listen.listener = .stopped := by
  have hfound {c : Connection Sink} (hover : c.inbound.supply = .over) : c.found ≠ .waiting := by
    rw [found_of_over hover]
    exact Frame.step_ne_waiting
  induction c using listen_induction generalizing t with
  | stopped c hne => exact absurd hrunning hne
  | waits c _ hadvance =>
    rw [advance_of_ne (hfound hover)] at hadvance
    cases hadvance
  | step c d _ hadvance ih =>
    rw [listen_eq_of_advance hrunning hadvance]
    rw [advance_of_ne (hfound hover)] at hadvance
    obtain rfl := Option.some.inj hadvance
    rw [Frame.readAt_eq, ← found_of_over hover] at ht
    have hsame {d : Connection Sink} {found : Frame.Found} (hact : c.act found = d) :
        d.depths = c.depths ∧ d.reader = c.reader := by
      have hdepths : d.depths = c.depths := hact ▸ c.act_depths found
      exact ⟨hdepths, by rw [reader, reader, hdepths]⟩
    cases hf : c.found with
    | waiting => exact absurd hf (hfound hover)
    | ended =>
      rw [hf] at ht
      obtain rfl : ⟨[], [], none, []⟩ = t := ht
      rw [listen_withInbound_of_stopped rfl, withInbound_ledger]
      exact ⟨ledger_shutdown h.unclosed serverClosed ▸ Ledger.Folded.of_no_messages .., rfl⟩
    | onward stage rest =>
      rw [hf] at ht ih
      exact ih ⟨h.handlers, h.writer, h.unclosed⟩ hrunning hover ht hids
    | console text rest =>
      obtain ⟨d, hact, hledger, hwired, hlistener⟩ := h.act_console text rest
      obtain ⟨hdepths, hreader⟩ := hsame hact
      obtain ⟨later, hlater⟩ :
          ∃ u, (Frame.readAt c.reader (.headers none) rest).followed c.reader = u := ⟨_, rfl⟩
      rw [hf] at ht ih
      dsimp only at ht
      rw [Frame.followed_prepend, hlater] at ht
      subst ht
      rw [hact] at ih ⊢
      rw [← hreader] at hlater
      obtain ⟨hfolded, hstopped⟩ := ih ⟨hwired.handlers, hwired.writer, hwired.unclosed⟩
        (hlistener.trans hrunning) hover hlater hids
      rw [withInbound_depths, hdepths, withInbound_ledger, hledger] at hfolded
      exact ⟨hfolded.after_console, hstopped⟩
    | message m rest =>
      obtain ⟨later, hlater⟩ : ∃ u, Frame.readAll c.reader rest = u := ⟨_, rfl⟩
      rw [hf] at ht ih
      obtain rfl : { later with messages := m :: later.messages } = t := hlater ▸ ht
      obtain ⟨hid, hids⟩ := List.forall_mem_cons.1 hids
      by_cases hanswerable : Answerable c.depths.answer m
      · obtain ⟨d, hact, hledger, hwired, hlistener⟩ := h.act_message hid hanswerable rest
        obtain ⟨hdepths, hreader⟩ := hsame hact
        rw [hact] at ih ⊢
        rw [Frame.readAll_eq, ← hreader] at hlater
        obtain ⟨hfolded, hstopped⟩ := ih ⟨hwired.handlers, hwired.writer, hwired.unclosed⟩
          (hlistener.trans hrunning) hover hlater hids
        rw [withInbound_depths, hdepths, withInbound_ledger, hledger] at hfolded
        exact ⟨hfolded.after_message hanswerable, hstopped⟩
      · obtain ⟨hledger, hstopped⟩ := h.act_tooDeep hanswerable rest
        rw [listen_withInbound_of_stopped hstopped, withInbound_ledger, hledger]
        exact ⟨.of_not_answerable hanswerable .., hstopped⟩
    | bad e rest =>
      obtain ⟨hledger, hstopped⟩ := act_bad h.unclosed e rest
      rw [hf] at ht
      obtain rfl : ⟨[], [], some e, rest⟩ = t := ht
      rw [listen_withInbound_of_stopped hstopped, withInbound_ledger, hledger]
      exact ⟨.of_no_messages .., hstopped⟩

/-! ## What the fold comes to -/

end Connection

namespace CallTable

/-- The request that a message completes, taken out of the table. -/
def completed? (t : CallTable) (m : Json.Object) : Option (Nat × CallTable) :=
  match errand m with
  | .response id => t.take id
  | _ => none

/-- The requests that messages complete, and the table that is left. -/
def answered (t : CallTable) : List Json.Object → List (Nat × Outcome) × CallTable
  | [] => ([], t)
  | m :: ms =>
    match t.completed? m with
    | none => t.answered ms
    | some (k, u) =>
      let r := u.answered ms
      ((k, Connection.outcomeOf m) :: r.1, r.2)

/-- Whether the message is a response to the request. -/
def answers (k : Nat) (m : Json.Object) : Bool :=
  match errand m with
  | .response id => id.asInt? == some (k : Int)
  | _ => false

variable {t u : CallTable} {k : Nat} {m : Json.Object}

theorem completed?_eq_some (h : t.completed? m = some (k, u)) :
    k ∈ t.pending ∧ answers k m = true ∧ u = { t with pending := t.pending.erase k } := by
  unfold completed? at h
  unfold answers
  cases herrand : errand m with
  | response id =>
    rw [herrand] at h
    obtain ⟨hk, hid, hu⟩ := take_eq_some h
    exact ⟨hk, by simp [hid], hu⟩
  | _ => simp [herrand] at h

theorem answers_eq_false (h : t.completed? m = none) (hk : k ∈ t.pending) :
    answers k m = false := by
  unfold completed? at h
  unfold answers
  cases herrand : errand m with
  | response id =>
    rw [herrand] at h
    simpa using asInt?_ne_of_take_eq_none h hk
  | _ => rfl

theorem answers_unique {j : Nat} (hj : answers j m = true) (hk : answers k m = true) : j = k := by
  unfold answers at hj hk
  cases herrand : errand m with
  | response id =>
    rw [herrand] at hj hk
    have heq := (eq_of_beq hj).symm.trans (eq_of_beq hk)
    exact Int.ofNat.inj (Option.some.inj heq)
  | _ => simp [herrand] at hj

/-- **A pending request ends as the first response to it says**, and is left over if there is
none. -/
theorem answered_of_mem (ms : List Json.Object) (hk : k ∈ t.pending) :
    match ms.find? (answers k) with
    | some m => (k, Connection.outcomeOf m) ∈ (t.answered ms).1
    | none => k ∈ (t.answered ms).2.pending := by
  induction ms generalizing t with
  | nil => exact hk
  | cons m ms ih =>
    rw [answered]
    cases hdone : t.completed? m with
    | none =>
      rw [List.find?_cons_of_neg (by simp [answers_eq_false hdone hk])]
      exact ih hk
    | some ju =>
      obtain ⟨j, u⟩ := ju
      obtain ⟨-, hj, rfl⟩ := completed?_eq_some hdone
      dsimp only
      by_cases hkm : answers k m = true
      · obtain rfl := answers_unique hj hkm
        rw [List.find?_cons_of_pos hkm]
        exact List.mem_cons_self ..
      · have hne : k ≠ j := by
          rintro rfl
          exact hkm hj
        have hlater := ih (t := { t with pending := t.pending.erase j })
          ((List.mem_erase_of_ne hne).2 hk)
        rw [List.find?_cons_of_neg hkm]
        cases hfind : ms.find? (answers k) with
        | none => rwa [hfind] at hlater
        | some m' =>
          rw [hfind] at hlater
          exact List.mem_cons_of_mem _ hlater

end CallTable

namespace Ledger

theorem handle_sink (l : Ledger) (m : Json.Object) :
    (l.handle m).sink = l.sink.after (noticeOf? m) := by
  unfold handle noticeOf?
  cases errand m with
  | response id => cases htake : l.calls.take id <;> simp [settle, htake, Sink.after]
  | _ => rfl

theorem handle_sent (l : Ledger) (m : Json.Object) :
    (l.handle m).sent = l.sent ++ (l.sink.reply? m).toList := by
  unfold handle Sink.reply?
  cases errand m with
  | response id => cases htake : l.calls.take id <;> simp [settle, htake]
  | request id method params => rfl
  | _ => exact (List.append_nil _).symm

theorem handle_of_none {l : Ledger} {m : Json.Object} (h : l.calls.completed? m = none) :
    (l.handle m).settled = l.settled ∧ (l.handle m).calls = l.calls := by
  unfold CallTable.completed? at h
  unfold handle
  cases herrand : errand m with
  | response id =>
    rw [herrand] at h
    dsimp only at h ⊢
    rw [h]
    exact ⟨rfl, rfl⟩
  | _ => exact ⟨rfl, rfl⟩

theorem handle_of_some {l : Ledger} {m : Json.Object} {k : Nat} {u : CallTable}
    (h : l.calls.completed? m = some (k, u)) :
    (l.handle m).settled = l.settled ++ [(k, Connection.outcomeOf m)] ∧ (l.handle m).calls = u := by
  unfold CallTable.completed? at h
  unfold handle
  cases herrand : errand m with
  | response id =>
    rw [herrand] at h
    dsimp only at h ⊢
    rw [h]
    exact ⟨rfl, rfl⟩
  | _ => simp [herrand] at h

theorem foldl_notices (ms : List Json.Object) (l : Ledger) :
    (ms.foldl handle l).sink.notices = l.sink.notices ++ ms.filterMap noticeOf? := by
  induction ms generalizing l with
  | nil => exact (List.append_nil _).symm
  | cons m ms ih =>
    rw [List.foldl_cons, ih, handle_sink, Sink.after_notices, List.filterMap_cons]
    cases noticeOf? m <;> simp

theorem foldl_output (ms : List Json.Object) (l : Ledger) :
    (ms.foldl handle l).sink.output = l.sink.output := by
  induction ms generalizing l with
  | nil => rfl
  | cons m ms ih => rw [List.foldl_cons, ih, handle_sink, Sink.after_output]

theorem foldl_sent (ms : List Json.Object) (l : Ledger) :
    (ms.foldl handle l).sent = l.sent ++ l.sink.replies ms := by
  induction ms generalizing l with
  | nil => exact (List.append_nil _).symm
  | cons m ms ih =>
    rw [List.foldl_cons, ih, handle_sink, handle_sent, Sink.replies, List.append_assoc]

theorem foldl_answered (ms : List Json.Object) (l : Ledger) :
    (ms.foldl handle l).settled = l.settled ++ (l.calls.answered ms).1 ∧
      (ms.foldl handle l).calls = (l.calls.answered ms).2 := by
  induction ms generalizing l with
  | nil => exact ⟨(List.append_nil _).symm, rfl⟩
  | cons m ms ih =>
    obtain ⟨hsettled, hcalls⟩ := ih (l.handle m)
    rw [List.foldl_cons, hsettled, hcalls, CallTable.answered]
    cases hdone : l.calls.completed? m with
    | none =>
      obtain ⟨hs, hc⟩ := handle_of_none hdone
      rw [hs, hc]
      exact ⟨rfl, rfl⟩
    | some ku =>
      obtain ⟨hs, hc⟩ := handle_of_some hdone
      rw [hs, hc, List.append_assoc]
      exact ⟨rfl, rfl⟩

end Ledger

namespace Connection

/-- An open connection to a sink that has read nothing so far. -/
structure Fresh (c : Connection Sink) : Prop where
  wired : c.Wired
  idle : c.listener = .idle
  stage : c.inbound.stage = .headers none
  supply : c.inbound.supply = .open

/-- The ledger of a connection that a stream has come in on, in any portions. -/
theorem Fresh.folded_finish {c d : Connection Sink} (h : c.Fresh) {portions : List (List UInt8)}
    (hd : (portions.foldl feed c.start).finish = d) {t : Frame.Transcript}
    (ht : Frame.readAll c.reader (c.inbound.bytes ++ portions.flatten) = t)
    (hids : ∀ m ∈ t.messages, ∀ id ∈ requestId? m, id.Scalar) :
    Ledger.Folded c.depths.answer t c.ledger d.ledger ∧ d.listener = .stopped := by
  have hread : (Frame.readAt c.reader c.inbound.stage
      (c.inbound.bytes ++ portions.flatten)).followed c.reader = t := by
    rw [h.stage, ← Frame.readAll_eq]
    exact ht
  rw [finish_foldl_feed h.idle h.supply] at hd
  rw [← hd]
  exact Wired.listen
    (c := ({ c with listener := .running } : Connection Sink).arrive portions.flatten .over)
    ⟨h.wired.handlers, h.wired.writer, h.wired.unclosed⟩ rfl rfl hread hids

/-- What a ledger says about the connection that it is of. -/
theorem of_ledger {c d : Connection Sink} {ms : List Json.Object} {texts : List String}
    {o : Option Notice} {reason : String}
    (h : d.ledger = (((ms.foldl Ledger.handle c.ledger).hear texts).note o).close reason) :
    d.owner.output = c.owner.output ++ texts ∧
    d.owner.notices = c.owner.notices ++ ms.filterMap noticeOf? ++ o.toList ∧
    d.sent = c.sent ++ c.owner.replies ms ∧
    d.settled = c.settled ++ (c.calls.answered ms).1 ++
      (c.calls.answered ms).2.pending.map (fun k => (k, .lost (.aborted k reason))) ∧
    d.calls.pending = [] ∧ d.calls.closed = some reason := by
  have hsink : d.owner = (((ms.foldl Ledger.handle c.ledger).hear texts).note o).sink :=
    congrArg Ledger.sink h
  obtain ⟨hdone, hleft⟩ := Ledger.foldl_answered ms c.ledger
  refine ⟨?_, ?_, (congrArg Ledger.sent h).trans (Ledger.foldl_sent ms c.ledger), ?_,
    congrArg (fun l => l.calls.pending) h, congrArg (fun l => l.calls.closed) h⟩
  · rw [hsink]
    refine (Sink.after_output _ o).trans ?_
    exact congrArg (· ++ texts) (Ledger.foldl_output ms c.ledger)
  · rw [hsink]
    refine (Sink.after_notices _ o).trans ?_
    exact congrArg (· ++ o.toList) (Ledger.foldl_notices ms c.ledger)
  · refine (congrArg Ledger.settled h).trans ((congrArg₂ (· ++ ·) hdone ?_).trans rfl)
    exact congrArg (fun u : CallTable => u.pending.map _) hleft

/-- **The listener handles a stream in order, and what cannot be read undoes nothing.** The stream
may arrive in any portions. Let `t` be what can be read of it up to its end or its first fault.

If every request of `t` can be answered, the console output of `t` reaches the sink. Each message of
`t` leads to its notice, if it comes to one; each request among them is answered by one message,
which repeats its id and can be written; each request of this side ends as the first response to it
says, and is lost if there is none. At the end the connection is closed, for a reason that tells how
the stream ended.

Otherwise there is a first request whose id is nested too deeply to be repeated. The messages before
it have these effects; it comes to its notice, is not answered and ends the listener, so that
nothing behind it is handled and what was not answered by then is lost. -/
theorem listen_in_order {c d : Connection Sink} (h : c.Fresh) {portions : List (List UInt8)}
    (hd : (portions.foldl feed c.start).finish = d) {t : Frame.Transcript}
    (ht : Frame.readAll c.reader (c.inbound.bytes ++ portions.flatten) = t)
    (hids : ∀ m ∈ t.messages, ∀ id ∈ requestId? m, id.Scalar) :
    ((∀ m ∈ t.messages, Answerable c.depths.answer m) →
      d.owner.output = c.owner.output ++ t.output ∧
      d.owner.notices = c.owner.notices ++ t.messages.filterMap noticeOf? ∧
      d.sent = c.sent ++ c.owner.replies t.messages ∧
      (c.owner.replies t.messages).map (·.field? "id") =
        (t.messages.filterMap requestId?).map some ∧
      (∀ r ∈ c.owner.replies t.messages,
        r.nesting ≤ c.depths.answer ∧ (Frame.encode? r).isSome) ∧
      d.settled = c.settled ++ (c.calls.answered t.messages).1 ++
        (c.calls.answered t.messages).2.pending.map
          (fun k => (k, .lost (.aborted k (stopReason t.fault)))) ∧
      (∀ k ∈ c.calls.pending, (k, match t.messages.find? (CallTable.answers k) with
        | some m => outcomeOf m
        | none => .lost (.aborted k (stopReason t.fault))) ∈ d.settled) ∧
      d.calls.pending = [] ∧ d.calls.closed = some (stopReason t.fault) ∧
      d.listener = .stopped) ∧
    ∀ before m after, t.messages = before ++ m :: after →
      (∀ b ∈ before, Answerable c.depths.answer b) → ¬ Answerable c.depths.answer m →
      (∃ texts, texts <+: t.output ∧ d.owner.output = c.owner.output ++ texts) ∧
      d.owner.notices =
        c.owner.notices ++ before.filterMap noticeOf? ++ (noticeOf? m).toList ∧
      d.sent = c.sent ++ c.owner.replies before ∧
      d.settled = c.settled ++ (c.calls.answered before).1 ++
        (c.calls.answered before).2.pending.map
          (fun k => (k, .lost (.aborted k (faultReason tooDeep)))) ∧
      d.calls.pending = [] ∧ d.calls.closed = some (faultReason tooDeep) ∧
      d.listener = .stopped := by
  obtain ⟨hfolded, hstopped⟩ := h.folded_finish hd ht hids
  constructor
  · intro hanswerable
    obtain ⟨houtput, hnotices, hsent, hends, hpending, hclosed⟩ :=
      of_ledger (c := c) (o := none) (hfolded.all hanswerable)
    refine ⟨houtput, hnotices.trans (List.append_nil _), hsent, c.owner.replies_ids t.messages,
      fun r hr => ⟨?_, Frame.encode?_isSome (Sink.scalar_of_mem_replies hids hr)⟩, hends,
      fun k hk => ?_, hpending, hclosed, hstopped⟩
    · exact Sink.nesting_of_mem_replies ((by decide : 2 ≤ 4).trans c.depths.canAnswer)
        hanswerable hr
    have hend := CallTable.answered_of_mem t.messages hk
    rw [hends]
    cases hfind : t.messages.find? (CallTable.answers k) with
    | some m =>
      rw [hfind] at hend
      exact List.mem_append_left _ (List.mem_append_right _ hend)
    | none =>
      rw [hfind] at hend
      exact List.mem_append_right _ (List.mem_map_of_mem hend)
  · intro before m after hms hbefore hm
    obtain ⟨texts, hprefix, hledger⟩ := hfolded.first before m after hms hbefore hm
    obtain ⟨houtput, hnotices, hsent, hends, hpending, hclosed⟩ := of_ledger (c := c) hledger
    exact ⟨⟨texts, hprefix, houtput⟩, hnotices, hsent, hends, hpending, hclosed, hstopped⟩

/-- A line of console output, a question to the user, a response, and a length that is none. -/
def sampleStream : List UInt8 :=
  Text.Utf8.encode "Starting\n".toList ++
    Frame.wrap (Text.Utf8.encode ("\x7b\"id\": \"q\", " ++
      "\"method\": \"window/showMessageRequest\", " ++
      "\"params\": \x7b\"type\": 3, \"message\": \"?\"\x7d\x7d").toList) ++
    Frame.wrap (Text.Utf8.encode "\x7b\"id\": 2, \"result\": null\x7d".toList) ++
    Text.Utf8.encode "Content-Length: 0\n".toList

/-- A connection with two requests under way and a listener that fails. -/
def sample : Connection Sink :=
  { name := "sample"
    handlers := Sink.handlers
    owner := { listener := some fun _ => some (.other "RuntimeError" "no") }
    calls := { nextId := 3, pending := [1, 2] } }

theorem listen_in_order_sample :
    sample.Fresh ∧
    (∀ m ∈ (Frame.readAll sample.reader sampleStream).messages,
      ∀ id ∈ requestId? m, id.Scalar) ∧
    (∀ m ∈ (Frame.readAll sample.reader sampleStream).messages,
      Answerable sample.depths.answer m) ∧
    ∃ d, ([sampleStream.take 40, sampleStream.drop 40].foldl feed sample.start).finish = d ∧
      d.owner.output = ["Starting"] ∧ d.settled.map Prod.fst = [2, 1] ∧
      d.calls.closed = some "protocol error: Invalid Content-Length: '0'" := by
  have hfresh : sample.Fresh := ⟨⟨rfl, rfl, rfl⟩, rfl, rfl, rfl⟩
  have hstream : sample.inbound.bytes ++ [sampleStream.take 40, sampleStream.drop 40].flatten =
      sampleStream := by
    simp [sample]
  obtain ⟨t, ht⟩ : ∃ t, Frame.readAll sample.reader sampleStream = t := ⟨_, rfl⟩
  have hread : (∀ m ∈ t.messages, ∀ id ∈ requestId? m, id.Scalar) ∧
      (∀ m ∈ t.messages, Answerable sample.depths.answer m) ∧ t.output = ["Starting"] ∧
      (sample.calls.answered t.messages).1.map Prod.fst = [2] ∧
      (sample.calls.answered t.messages).2.pending = [1] ∧
      stopReason t.fault = "protocol error: Invalid Content-Length: '0'" := by
    rw [← ht]
    decide +kernel
  obtain ⟨hids, hanswerable, hprinted, hanswered, hleft, hreason⟩ := hread
  obtain ⟨houtput, -, -, -, -, hsettled, -, -, hclosed, -⟩ :=
    (listen_in_order hfresh rfl (by rw [hstream]; exact ht) hids).1 hanswerable
  refine ⟨hfresh, ht ▸ hids, ht ▸ hanswerable, _, rfl, ?_, ?_, ?_⟩
  · rw [houtput, hprinted]
    rfl
  · rw [hsettled, hleft, List.map_append, List.map_append, hanswered]
    rfl
  · rw [hclosed, hreason]

/-! ## A request that is not answered -/

/-- A request whose id consists of arrays in one another. -/
def deepRequest (n : Nat) : Json.Object :=
  [("id", .nested n), ("method", .str "x")]

/-- A message for the log. -/
def laterLog : Json.Object :=
  [("method", .str "window/logMessage"),
    ("params", .obj [("type", .int 3), ("message", .str "ready")])]

theorem render_deepRequest (n : Nat) : (Json.obj (deepRequest n)).render =
    Text.ofChars ("\x7b\"id\": ".toList ++
      (List.replicate n '[' ++ "null".toList ++ List.replicate n ']') ++
      ", \"method\": \"x\"\x7d".toList) := by
  rw [deepRequest, Json.render, Json.renderFields, Json.renderFields, Json.render_nested,
    Json.render]
  generalize List.replicate n '[' ++ "null".toList ++ List.replicate n ']' = cs
  simp only [Json.ofChars_append, List.append_assoc]
  rfl

theorem render_laterLog : (Json.obj laterLog).render =
    Text.ofChars ("\x7b\"method\": \"window/logMessage\", \"params\": " ++
      "\x7b\"type\": 3, \"message\": \"ready\"\x7d\x7d").toList := by
  decide +kernel

/-- The two messages. -/
def deepItems (n : Nat) : List Frame.Item :=
  [.message (deepRequest n), .message laterLog]

theorem deepItems_carried {reader : Frame.Reader} {n : Nat} (hn : n ≤ 1000) :
    ∀ item ∈ deepItems n, item.Carried reader (n + 2) := by
  have hname : ∀ name : String, ∃ cs, (name : Text) = Text.ofChars cs := fun name => ⟨_, rfl⟩
  have hnodup : [Text.ofString "id", Text.ofString "method"].Nodup := by decide
  have hdeep : (Json.obj (deepRequest n)).Plain (n + 2) := by
    refine .obj ?_ ?_ hnodup
    · simp only [deepRequest, List.forall_mem_cons]
      exact ⟨(Json.plain_nested n).mono (Nat.le_succ n), .str _, by simp⟩
    · simp only [deepRequest, List.forall_mem_cons]
      exact ⟨hname _, hname _, by simp⟩
  have hlater : (Json.obj laterLog).Plain (n + 2) := by
    refine .obj ?_ ?_ (by decide)
    · simp only [laterLog, List.forall_mem_cons]
      refine ⟨.str _, .obj ?_ ?_ (by decide), by simp⟩
      · simp only [List.forall_mem_cons]
        exact ⟨.int (by decide), .str _, by simp⟩
      · simp only [List.forall_mem_cons]
        exact ⟨hname _, hname _, by simp⟩
    · simp only [laterLog, List.forall_mem_cons]
      exact ⟨hname _, hname _, by simp⟩
  have hlength : 4 * ("\x7b\"id\": ".toList ++
      (List.replicate n '[' ++ "null".toList ++ List.replicate n ']') ++
      ", \"method\": \"x\"\x7d".toList).length ≤ Frame.maxBuffer := by
    simp [Frame.maxBuffer]
    omega
  simp only [deepItems, List.forall_mem_cons]
  exact ⟨⟨hdeep, fun body => reader.takes_of_render (render_deepRequest n) hlength⟩,
    ⟨hlater, fun body => reader.takes_of_render render_laterLog (by decide)⟩, by simp⟩

/-- The two messages on a stream. -/
def deepStream (n : Nat) : List UInt8 :=
  (((deepItems n).mapM Frame.Item.bytes?).getD []).flatten

/-- A request whose id is read, but nested too deeply to be repeated, ends the listener, whatever
follows it. -/
theorem finish_deepStream {n : Nat} (hn : n ≤ 1000) (hread : n + 2 ≤ sample.depths.read)
    (hanswer : sample.depths.answer ≤ n) :
    (Frame.readAll sample.reader (deepStream n)).messages = [deepRequest n, laterLog] ∧
    ∃ d, ([deepStream n].foldl feed sample.start).finish = d ∧ d.sent = [] ∧
      d.owner.notices = [] ∧ d.calls.closed = some (faultReason tooDeep) := by
  obtain ⟨chunks, hchunks, htranscript⟩ :=
    Frame.readAll_items (show n + 2 ≤ sample.reader.depth from hread) (deepItems_carried hn)
  have hstream : deepStream n = chunks.flatten := by rw [deepStream, hchunks]; rfl
  rw [← hstream] at htranscript
  have hids : ∀ m ∈ [deepRequest n, laterLog], ∀ id ∈ requestId? m, id.Scalar := by
    simp only [List.forall_mem_cons]
    refine ⟨fun id hid => ?_, fun id hid => ?_, fun _ hnil => absurd hnil List.not_mem_nil⟩
    · obtain rfl := Option.some.inj hid
      exact (Json.plain_nested n).scalar
    · cases hid
  have hdeep : ¬ Answerable sample.depths.answer (deepRequest n) := by
    intro hanswerable
    have hlt := hanswerable (.nested n) rfl
    rw [Json.nesting_nested] at hlt
    omega
  have hflat : sample.inbound.bytes ++ [deepStream n].flatten = deepStream n :=
    List.flatten_singleton ..
  obtain ⟨hfolded, -⟩ := Fresh.folded_finish ⟨⟨rfl, rfl, rfl⟩, rfl, rfl, rfl⟩ rfl
    (hflat ▸ htranscript) hids
  obtain ⟨texts, -, hledger⟩ := hfolded.first [] _ [laterLog] rfl (by simp) hdeep
  obtain ⟨-, hnotices, hsent, -, -, hclosed⟩ := of_ledger hledger
  exact ⟨by rw [htranscript]; rfl, _, rfl, hsent, hnotices, hclosed⟩

/-- **The listener does not handle every stream in order.** A request that is read without fault
is not answered, the message behind it is not recorded, and the connection is closed although the
stream has not come to its end. -/
theorem deep_id_unanswered :
    sample.Fresh ∧
    (Frame.readAll sample.reader (deepStream 989)).messages = [deepRequest 989, laterLog] ∧
    requestId? (deepRequest 989) = some (.nested 989) ∧ (Json.nested 989).Scalar ∧
    (noticeOf? laterLog).isSome ∧
    ∃ d, ([deepStream 989].foldl feed sample.start).finish = d ∧ d.sent = [] ∧
      d.owner.notices = [] ∧ d.calls.closed = some ("listener failed: RecursionError: " ++
        "maximum recursion depth exceeded while encoding a JSON object") := by
  obtain ⟨hmessages, hfinish⟩ := finish_deepStream (n := 989) (by decide) (by decide) (by decide)
  exact ⟨⟨⟨rfl, rfl, rfl⟩, rfl, rfl, rfl⟩, hmessages, rfl, (Json.plain_nested 989).scalar,
    by decide +kernel, hfinish⟩

end Connection

end SymbolAtlas
