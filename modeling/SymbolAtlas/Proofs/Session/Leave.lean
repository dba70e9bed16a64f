import SymbolAtlas.Proofs.Session.Atomicity
import SymbolAtlas.Proofs.Session.Guarantees
import SymbolAtlas.Proofs.Session.Refusal

/-!
# Leave after any history

A session that had its handshake takes leave of its server when it is closed, as long as the server
can be reached and nothing has failed in between. An operation that was only rejected does not
count, and neither does a fault that no stage foresees. Any other failure has closed the session
already: then the server is told nothing, although it can be reached and would agree to shut down.

* `Fault.Closing`, `Operation.Failed` — the faults that close a session, with
  `Operation.aftermath` for one operation and `Sound.aftermath` for several;
* `Peer.parted` — a peer that leave was taken of, with `Session.close_parts`;
* `Line.parting` — what is passed on for that, with `Line.parted_log`;
* `close_after_greeting` — closing a session after any history.
-/

namespace SymbolAtlas

open Lsp

/-! ## What failures leave -/

/-- A failure that is no mere rejection. -/
def Fault.Closing (fault : Fault) : Prop :=
  ∃ f, fault = .failure f ∧ f.kind ≠ .sessionState

/-- The phase that an operation with the given result leaves a ready session in. -/
inductive Aftermath : Except Fault Unit → Phase → Prop
  | held {result : Except Fault Unit} {phase : Phase}
      (h : ∀ fault, result = .error fault → ¬ fault.Closing) (hphase : phase ∈ Phase.ready) :
      Aftermath result phase
  | fell {fault : Fault} (h : fault.Closing) : Aftermath (.error fault) .closed

namespace Aftermath

open Session Operation

variable {phase : Phase}

theorem of_ok (h : phase ∈ Phase.ready) : Aftermath (.ok ()) phase :=
  .held (by rintro fault ⟨⟩) h

theorem of_stray {s : Stray} (h : phase ∈ Phase.ready) : Aftermath (.error (.stray s)) phase := by
  refine .held ?_ h
  rintro fault ⟨⟩ ⟨f, hf, -⟩
  cases hf

theorem of_rejected {f : Failure} (hkind : f.kind = .sessionState) (h : phase ∈ Phase.ready) :
    Aftermath (.error (.failure f)) phase := by
  refine .held ?_ h
  rintro fault ⟨⟩ ⟨f', hf, hne⟩
  cases hf
  exact hne hkind

/-- A stage that meets a fault leaves the session fallen. -/
theorem of_fallen {s : Session} {fault : Fault} {kinds : List Failure.Kind}
    (h : s.phase ∈ Phase.ready) (hkind : fault.Among kinds)
    (hkinds : Failure.Kind.sessionState ∉ kinds) :
    Aftermath (.error fault) (s.fallen fault).phase := by
  cases fault with
  | failure f => exact .fell ⟨f, rfl, fun hstate => hkinds (hstate ▸ hkind f rfl)⟩
  | stray e => exact .of_stray h

variable {τ : Type} [Peer τ] {t : Talk τ}

theorem of_handshakeEnds {disk : Disk} {processId : Int} {root : Path}
    {r : Except Fault Json × Talk τ} (h : t.session.phase ∈ Phase.ready)
    (hends : HandshakeEnds disk processId root t r) :
    Aftermath (silenced r).1 (silenced r).2.session.phase := by
  have hcreated : t.session.phase ≠ .created := fun hcreated => by
    simp [hcreated, Phase.ready] at h
  cases hends with
  | outOfPhase _ => exact of_rejected rfl h
  | _ => exact absurd ‹t.session.phase = .created› hcreated

theorem of_openEnds (hpeer : Peer.Faithful τ) {disk : Disk} {path : Path} {languageId : Text}
    {r : Except Fault TextDocument × Talk τ} (h : t.session.phase ∈ Phase.ready)
    (hends : OpenEnds disk path languageId t r) :
    Aftermath (silenced r).1 (silenced r).2.session.phase := by
  cases hends with
  | outOfPhase hphase => exact absurd h hphase
  | unreadable _ => exact .fell ⟨_, rfl, by simp [Failure.kind]⟩
  | astray _ => exact of_stray h
  | again _ _ _ _ _ => exact of_ok h
  | untold _ _ _ _ htell => exact of_fallen h (hpeer _ _ _ _ htell) (by simp)
  | opened _ _ _ _ _ _ => exact of_ok (show Phase.documentOpen ∈ Phase.ready by decide)

theorem of_askEnds {α : Type} {call : Call} {subject : Subject} {read : Json → Except Failure α}
    {r : Except Fault α × Talk τ} (h : t.session.phase ∈ Phase.ready)
    (hread : ∀ v f, read v = .error f → f.kind = .query)
    (hends : AskEnds call (queryVerdict subject read) t r) :
    Aftermath (silenced r).1 (silenced r).2.session.phase := by
  obtain @⟨es, es', reply, p, hask⟩ := hends
  cases hverdict : queryVerdict subject read t.session.timeout reply with
  | ok a => exact of_ok h
  | error fault => exact of_fallen h (queryVerdict_among hread hverdict) (by simp)

theorem of_symbolsEnds {document : Option TextDocument}
    {r : Except Fault (List SymbolNode) × Talk τ} (htidy : t.session.Tidy)
    (h : t.session.phase ∈ Phase.ready) (hends : SymbolsEnds document t r) :
    Aftermath (silenced r).1 (silenced r).2.session.phase := by
  cases hends with
  | outOfPhase _ => exact of_rejected rfl h
  | stranded hphase hdocument =>
    obtain ⟨d, hd, -⟩ := htidy.current hphase
    simp [hd] at hdocument
  | unopened _ _ _ => exact of_rejected rfl h
  | asked _ _ _ hends => exact of_askEnds h (fun _ _ => Answer.kind_of_decodeAll) hends

theorem of_referencesEnds {uri : Text} {p : Position} {r : Except Fault (List Location) × Talk τ}
    (h : t.session.phase ∈ Phase.ready) (hends : ReferencesEnds uri p t r) :
    Aftermath (silenced r).1 (silenced r).2.session.phase := by
  cases hends with
  | outOfPhase _ => exact of_rejected rfl h
  | unopened _ _ => exact of_rejected rfl h
  | asked _ _ hends => exact of_askEnds h (fun _ _ => Answer.kind_of_decodeAll) hends

theorem of_searchEnds {text : String} {r : Except Fault (List SymbolNode) × Talk τ}
    (h : t.session.phase ∈ Phase.ready) (hends : SearchEnds text t r) :
    Aftermath (silenced r).1 (silenced r).2.session.phase := by
  cases hends with
  | outOfPhase hphase => exact absurd h hphase
  | asked _ hends => exact of_askEnds h (fun _ _ => Answer.kind_of_decodeAll) hends

end Aftermath

namespace Operation

variable {τ : Type} [Peer τ] {t : Talk τ}

/-- What the operations come to, one after the other. -/
def results : List Operation → Talk τ → List (Except Fault Unit)
  | [], _ => []
  | op :: ops, t => (op.perform t).1 :: results ops (op.perform t).2

/-- One of the operations has failed. -/
def Failed (ops : List Operation) (t : Talk τ) : Prop :=
  ∃ fault, .error fault ∈ results ops t ∧ fault.Closing

theorem not_failed_nil : ¬ Failed [] t := by
  simp [Failed, results]

theorem failed_cons {op : Operation} {ops : List Operation} :
    Failed (op :: ops) t ↔
      (∃ fault, (op.perform t).1 = .error fault ∧ fault.Closing) ∨ Failed ops (op.perform t).2 := by
  simp [Failed, results, or_and_right, exists_or, eq_comm]

/-- A ready session stays ready unless an operation fails, which closes it. -/
theorem aftermath (hpeer : Peer.Faithful τ) {op : Operation} (hop : op ≠ .close)
    (htidy : t.session.Tidy) (h : t.session.phase ∈ Phase.ready) :
    Aftermath (op.perform t).1 (op.perform t).2.session.phase := by
  cases op with
  | handshake disk processId root => exact .of_handshakeEnds h (Session.handshake_ends ..)
  | openDocument disk path languageId => exact .of_openEnds hpeer h (Session.openDocument_ends ..)
  | documentSymbols document => exact .of_symbolsEnds htidy h (Session.documentSymbols_ends ..)
  | references uri p => exact .of_referencesEnds h (Session.references_ends ..)
  | workspaceSymbols text => exact .of_searchEnds h (Session.workspaceSymbols_ends ..)
  | close => exact absurd rfl hop

/-- A handshake that succeeds leaves a ready session. -/
theorem ready_of_handshake {disk : Disk} {processId : Int} {root : Path} {t' : Talk τ}
    (h : perform (.handshake disk processId root) t = (.ok (), t')) :
    t'.session.phase ∈ Phase.ready := by
  have hends := Session.handshake_ends disk processId root t
  change silenced (exec (Session.handshake disk processId root) t) = _ at h
  generalize exec (Session.handshake disk processId root) t = r at hends h
  cases hends with
  | done _ _ _ _ =>
    cases h
    exact List.mem_cons_self ..
  | _ => cases h

end Operation

theorem Line.faithful : Peer.Faithful Line :=
  fun _ _ _ _ h => (Line.notify_log_of_error h).2

/-- Nothing opens a session again that is closed. -/
theorem Sound.stays_closed {t : Talk Line} (h : Sound t) (hclosed : t.session.phase = .closed)
    (ops : List Operation) : (Operation.performAll ops t).session.phase = .closed := by
  induction ops generalizing t with
  | nil => exact hclosed
  | cons op ops ih =>
    have hstep := op.step t
    refine ih (hstep.sound h) ?_
    have hrank := (hstep.lawful h).forward
    rw [hclosed] at hrank
    generalize (op.perform t).2.session.phase = phase at hrank ⊢
    revert hrank
    cases phase <;> decide

/-- Any number of operations leave a ready session ready, or one of them has failed and the session
is closed. -/
theorem Sound.aftermath {t : Talk Line} (h : Sound t) (hready : t.session.phase ∈ Phase.ready)
    {ops : List Operation} (hops : ∀ op ∈ ops, op ≠ .close) :
    ¬ Operation.Failed ops t ∧ (Operation.performAll ops t).session.phase ∈ Phase.ready ∨
      Operation.Failed ops t ∧ (Operation.performAll ops t).session.phase = .closed := by
  induction ops generalizing t with
  | nil => exact .inl ⟨Operation.not_failed_nil, hready⟩
  | cons op ops ih =>
    have hsound := (op.step t).sound h
    have hnext := Operation.aftermath Line.faithful (hops op (List.mem_cons_self ..)) h.toTidy hready
    have hcons : Operation.performAll (op :: ops) t = Operation.performAll ops (op.perform t).2 :=
      rfl
    rw [Operation.failed_cons, hcons]
    generalize (op.perform t).1 = result, (op.perform t).2 = t' at hsound hnext ⊢
    generalize hphase : t'.session.phase = phase at hnext
    cases hnext with
    | held hheld hready' =>
      have hfirst : ¬ ∃ fault, result = .error fault ∧ fault.Closing :=
        fun ⟨fault, hfault, hclosing⟩ => hheld fault hfault hclosing
      obtain ⟨hrest, hlast⟩ | ⟨hrest, hlast⟩ :=
        ih hsound (hphase ▸ hready') fun op hmem => hops op (List.mem_cons_of_mem _ hmem)
      · exact .inl ⟨not_or.2 ⟨hfirst, hrest⟩, hlast⟩
      · exact .inr ⟨.inr hrest, hlast⟩
    | @fell fault hclosing =>
      exact .inr ⟨.inl ⟨fault, rfl, hclosing⟩, hsound.stays_closed hphase ops⟩

/-! ## Taking leave -/

/-- The peer after it was asked to shut down and, if it agreed, was let go. -/
def Peer.parted {τ : Type} [Peer τ] (p : τ) : τ :=
  match Peer.request Call.shutdown p with
  | (.result _, q) => (Peer.notify Call.exit q).2
  | (_, q) => q

namespace Session

variable {τ : Type} [Peer τ] {t : Talk τ}

theorem takeLeave_parts (t : Talk τ) :
    ∃ es, (exec (takeLeave : SessionM τ Unit) t).2.peer = Peer.noted es (Peer.parted t.peer) := by
  unfold takeLeave noteUnfinished Peer.parted
  simp only [exec_bind, exec_ask]
  rcases Peer.request Call.shutdown t.peer with ⟨reply, p⟩
  cases reply with
  | result v =>
    rcases htell : Peer.notify Call.exit p with ⟨told, q⟩
    obtain ⟨es, result, hexec, -⟩ := exec_sendExit ⟨t.session, p⟩ htell
    refine ⟨es, ?_⟩
    rw [hexec]
    exact congrArg (Peer.noted es) (congrArg Prod.snd htell).symm
  | refused r => exact ⟨[_], rfl⟩
  | lost l => exact ⟨[_], rfl⟩
  | raised kind text => exact ⟨[], rfl⟩
  | silent =>
    simp only [exec_bind, exec_current]
    cases t.session.timeout.wait with
    | ok u => exact ⟨[_], rfl⟩
    | error e => exact ⟨[], rfl⟩

/-- A ready session whose peer can be reached takes leave of it when it is closed. -/
theorem close_parts (h : t.session.phase ∈ Phase.ready) (hopen : Peer.isClosed t.peer = false) :
    ∃ es, (exec (close : SessionM τ Unit) t).2.peer = Peer.noted es (Peer.parted t.peer) := by
  unfold close
  simp only [exec_bind, exec_current, exec_enter, if_pos h, exec_get, hopen]
  exact takeLeave_parts { t with session := { t.session with phase := .closed } }

/-- A session that is not ready sends nothing when it is closed. -/
theorem close_of_not_ready (h : t.session.phase ∉ Phase.ready) :
    exec (close : SessionM τ Unit) t =
      (.ok (), { t with session := { t.session with phase := .closed } }) := by
  unfold close
  simp only [exec_bind, exec_current, exec_enter, if_neg h]
  rfl

end Session

namespace Line

/-- What is passed on when leave is taken: the request to shut down, and if it is answered, the
message that lets the server go. -/
def parting (p : Line) : List Exchange :=
  match p.oracle.request p.clock Call.shutdown with
  | .dropped _ => []
  | .passed (.result v) =>
    match p.oracle.notification (p.clock + 1) Call.exit with
    | none => [.asked Call.shutdown (.result v), .told Call.exit]
    | some _ => [.asked Call.shutdown (.result v)]
  | .passed reply => [.asked Call.shutdown reply]

theorem request_of_passed {p : Line} {call : Call} {reply : Reply}
    (h : p.oracle.request p.clock call = .passed reply) :
    Peer.request call p =
      (reply, { p with clock := p.clock + 1, log := p.log ++ [.asked call reply] }) := by
  change p.request call = _
  rw [request, h]

theorem request_of_dropped {p : Line} {call : Call} {o : Obstacle}
    (h : p.oracle.request p.clock call = .dropped o) :
    Peer.request call p = (o.reply, { p with clock := p.clock + 1 }) := by
  change p.request call = _
  rw [request, h]

theorem parted_log (p : Line) : (Peer.parted p).log = p.log ++ p.parting := by
  unfold Peer.parted parting
  cases hfate : p.oracle.request p.clock Call.shutdown with
  | dropped o =>
    rw [request_of_dropped hfate]
    cases o <;> simp [Obstacle.reply]
  | passed reply =>
    rw [request_of_passed hfate]
    cases reply with
    | result v =>
      change (notify Call.exit _).2.log = _
      unfold notify
      cases p.oracle.notification (p.clock + 1) Call.exit <;> simp
    | _ => rfl

end Line

/-- **Leave is taken after any history without a failure, and after no other.** Whatever was done
before the handshake, whatever line there is, and whatever is done after the handshake short of
closing: if the line can be reached when the session is closed, the server is asked to shut down,
and is let go if it agrees, as long as no operation since the handshake has failed. If one has, the
line is left as it is. -/
theorem close_after_greeting (timeout : Timeout) (oracle : Oracle) (before after : List Operation)
    (disk : Disk) (processId : Int) (root : Path) {greeted : Talk Line}
    (hgreeted : Operation.perform (.handshake disk processId root)
      (Operation.performAll before (Talk.start timeout oracle)) = (.ok (), greeted))
    (hafter : ∀ op ∈ after, op ≠ .close) :
    let t := Operation.performAll after greeted
    Peer.isClosed t.peer = false →
    (¬ Operation.Failed after greeted →
      (Operation.perform .close t).2.peer.log = t.peer.log ++ t.peer.parting) ∧
    (Operation.Failed after greeted → (Operation.perform .close t).2.peer = t.peer) := by
  have hstart := (Sound.start timeout oracle).performAll before
  generalize Operation.performAll before (Talk.start timeout oracle) = start at hgreeted hstart
  have hsound : Sound greeted := by
    have h := (Operation.step (.handshake disk processId root) start).sound hstart
    rwa [hgreeted] at h
  have hready := Operation.ready_of_handshake hgreeted
  intro t hopen
  obtain ⟨hheld, hphase⟩ | ⟨hfailed, hphase⟩ := hsound.aftermath hready hafter
  · refine ⟨fun _ => ?_, fun hfailed => absurd hfailed hheld⟩
    obtain ⟨es, hparted⟩ := Session.close_parts (t := t) hphase hopen
    change (exec Session.close t).2.peer.log = _
    rw [hparted, Line.noted_eq, Line.parted_log]
  · refine ⟨fun hheld => absurd hfailed hheld, fun _ => ?_⟩
    have hclosed : t.session.phase ∉ Phase.ready := by simp [t, hphase, Phase.ready]
    change (exec Session.close t).2.peer = _
    rw [Session.close_of_not_ready hclosed]

/-! ## Samples -/

/-- A line that takes everything. A search gets the given reply, and any other request is
answered. -/
def searchOracle (reply : Reply) : Oracle where
  request _ call := .passed (if call.method = "workspace/symbol" then reply else .result .null)
  notification _ _ := none
  isClosed _ := false

/-- A session on that line after its handshake. -/
def searchLine (reply : Reply) : Talk Line :=
  (Operation.perform (.handshake bareDisk 1 (Path.parse "/"))
    (Talk.start briefSession.timeout (searchOracle reply))).2

/-- After a search that was answered, the server is asked to shut down and let go. -/
theorem leave_after_answer :
    let t := Operation.performAll [.workspaceSymbols "A"] (searchLine (.result .null))
    Operation.results [.workspaceSymbols "A"] (searchLine (.result .null)) = [.ok ()] ∧
      Peer.isClosed t.peer = false ∧
      (Operation.perform .close t).2.peer.log =
        t.peer.log ++ [.asked Call.shutdown (.result .null), .told Call.exit] := by
  intro t
  have hgreeted : Operation.perform (.handshake bareDisk 1 (Path.parse "/"))
      (Operation.performAll [] (Talk.start briefSession.timeout (searchOracle (.result .null)))) =
        (.ok (), searchLine (.result .null)) := rfl
  have hresults : Operation.results [.workspaceSymbols "A"] (searchLine (.result .null)) =
      [.ok ()] := rfl
  have hopen : Peer.isClosed t.peer = false := rfl
  have hleave := (close_after_greeting _ _ [] [.workspaceSymbols "A"] _ _ _ hgreeted (by simp)
    hopen).1 (by simp [Operation.Failed, hresults])
  exact ⟨hresults, hopen, hleave⟩

/-- After a search that was refused, nothing is sent, although the line is there and the server
would agree to shut down. -/
theorem no_leave_after_refusal :
    let refusal : Refusal := ⟨.number (-32803), "index not ready", .null⟩
    let t := Operation.performAll [.workspaceSymbols "A"] (searchLine (.refused refusal))
    Operation.perform (.handshake bareDisk 1 (Path.parse "/"))
        (Talk.start briefSession.timeout (searchOracle (.refused refusal))) =
        (.ok (), searchLine (.refused refusal)) ∧
      Operation.results [.workspaceSymbols "A"] (searchLine (.refused refusal)) =
        [.error (.failure (.queryRefused (.workspaceSymbols "A") refusal))] ∧
      Peer.isClosed t.peer = false ∧
      t.peer.parting = [.asked Call.shutdown (.result .null), .told Call.exit] ∧
      (Operation.perform .close t).2.peer.log = t.peer.log :=
  ⟨rfl, rfl, rfl, rfl, rfl⟩

end SymbolAtlas
