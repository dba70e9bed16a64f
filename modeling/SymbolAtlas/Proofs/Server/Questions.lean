import SymbolAtlas.Proofs.Server.Wire
import SymbolAtlas.Proofs.Session.Endings

/-!
# What a session says to a running server

A step of a session that succeeds has sent exactly the messages of that step, and what it returns
was read from what the server answered.

* `LiveServer.Answered` — a call that was answered with a value, which it stays later;
* `Session.handshake_sends`, `Session.openDocument_sends`, `Session.documentSymbols_sends`,
  `Session.references_sends`, `Session.close_sends` — the steps.
-/

namespace SymbolAtlas

open Lsp

namespace LiveServer

variable {s s' : LiveServer} {call : Call} {v : Json}

/-- The call was sent, and it was answered with the value. -/
def Answered (s : LiveServer) (call : Call) (v : Json) : Prop :=
  ∃ id, Connection.requestMessage id call.method call.params ∈ s.connection.spoken ∧
    s.connection.outcome? id = some (.result v)

/-- An answer stays as it is. -/
theorem Answered.later (h : s.Answered call v)
    (hlater : Connection.Later s.connection s'.connection) : s'.Answered call v := by
  obtain ⟨id, hspoken, houtcome⟩ := h
  exact ⟨id, hlater.spoken.subset hspoken, hlater.outcome? houtcome⟩

theorem request_answered (hs : s.connection.Numbered) (h : Peer.request call s = (.result v, s')) :
    Sends s [.request call] s' ∧ s'.Answered call v := by
  obtain ⟨hsends, houtcome⟩ | ⟨-, -, hnone⟩ := request_sends hs h
  · refine ⟨hsends, _, ?_, houtcome v rfl⟩
    rw [hsends.spoken]
    exact List.mem_append_right _ (List.mem_singleton_self _)
  · exact absurd rfl (hnone v)

end LiveServer

namespace Session

open LiveServer

variable {α : Type} {t t' : Talk LiveServer}

/-- A journal entry is not sent. -/
theorem note_quiet {level : Level} {event : String} {fields : Json.Object} {u : Unit}
    (h : exec (note level event fields) t = (.ok u, t')) :
    Connection.Quiet t.peer.connection t'.peer.connection := by
  cases h
  exact Connection.quiet_recordAll ..

theorem handshake_sends (ht : t.peer.connection.Numbered) {disk : Disk} {processId : Int}
    {root : Path} {v : Json} (h : exec (handshake disk processId root) t = (.ok v, t')) :
    t'.session.documents = t.session.documents ∧
      ∃ resolved, disk.resolve root = .ok resolved ∧
        Sends t.peer [.request (Call.handshake (clientInfo processId resolved)),
          .notification Call.initialized] t'.peer := by
  have hends := handshake_ends disk processId root t
  rw [h] at hends
  cases hends with
  | @done resolved es es' v p q hphase hroot hask htell =>
    have hnoted := Sends.of_quiet (quiet_noted es t.peer)
    obtain ⟨hasked, -⟩ := request_answered (hnoted.numbered ht) hask
    have htold := (notify_sends htell).quiet (quiet_noted es' q)
    exact ⟨rfl, _, hroot, (hnoted.trans hasked).trans htold⟩

/-- The message that a document is opened with. -/
def openingOf (d : TextDocument) : Outgoing :=
  .notification (Call.didOpen d.uri d.languageId d.version d.text)

/-- A document is opened with a message, unless one with its address is open already. -/
theorem openDocument_sends {disk : Disk} {path : Path} {languageId : Text} {d : TextDocument}
    (h : exec (openDocument disk path languageId) t = (.ok d, t')) :
    ∃ new, documentOf disk languageId path = some new ∧
      ((Fields.get? t.session.documents new.uri = some d ∧
          t'.session.documents = t.session.documents ∧ Sends t.peer [] t'.peer) ∨
        (Fields.get? t.session.documents new.uri = none ∧ d = new ∧
          t'.session.documents = Fields.put t.session.documents new.uri new ∧
          Sends t.peer [openingOf new] t'.peer)) := by
  have hends := openDocument_ends disk path languageId t
  generalize exec (openDocument disk path languageId) t = r at h hends
  cases hends with
  | outOfPhase hphase => cases h
  | unreadable hphase => cases h
  | astray hphase => cases h
  | untold hphase htext hpath hd htell => cases h
  | @again es text resolved d hphase htext hpath hd =>
    have hnew := documentOf_eq_some htext hpath languageId
    -- nothing depends on how the address is spelled
    generalize (resolved.uri : Text) = uri at hd hnew
    cases h
    exact ⟨_, hnew, .inl ⟨hd, rfl, .of_quiet (quiet_noted es _)⟩⟩
  | @opened es text resolved p hphase htext hpath hd htell =>
    have hnew := documentOf_eq_some htext hpath languageId
    have htold := (notify_sends htell).quiet (quiet_noted es p)
    generalize (resolved.uri : Text) = uri at h hd hnew htold
    obtain ⟨hd', rfl⟩ := Prod.mk.inj h
    exact ⟨_, hnew, .inr ⟨hd, (Except.ok.inj hd').symm, rfl, htold⟩⟩

/-- A question that succeeds was sent and answered, and its result was read from the answer. -/
theorem askEnds_sends (ht : t.peer.connection.Numbered) {call : Call} {subject : Subject}
    {read : Json → Except Failure α} {a : α}
    (h : AskEnds call (queryVerdict subject read) t (.ok a, t')) :
    t'.session = t.session ∧ Sends t.peer [.request call] t'.peer ∧
      ∃ v, t'.peer.Answered call v ∧ read v = .ok a := by
  generalize hend : ((Except.ok a, t') : Except Fault α × Talk LiveServer) = end_ at h
  obtain @⟨es, es', reply, p, hask⟩ := h
  obtain ⟨hverdict, rfl⟩ := Prod.mk.inj hend
  rw [← hverdict]
  obtain ⟨v, rfl, hread⟩ := queryVerdict_eq_ok hverdict.symm
  have hnoted := Sends.of_quiet (quiet_noted es t.peer)
  obtain ⟨hasked, hanswered⟩ := request_answered (hnoted.numbered ht) hask
  have hquiet := quiet_noted es' p
  exact ⟨rfl, (hnoted.trans hasked).quiet hquiet, v, hanswered.later hquiet.later, hread⟩

theorem documentSymbols_sends (ht : t.peer.connection.Numbered) {d : TextDocument}
    {ns : List SymbolNode} (h : exec (documentSymbols (some d)) t = (.ok ns, t')) :
    t'.session = t.session ∧ Sends t.peer [.request (Call.documentSymbol d.uri)] t'.peer ∧
      ∃ v, t'.peer.Answered (Call.documentSymbol d.uri) v ∧
        Answer.documentSymbols d.uri v = .ok ns := by
  have hends := documentSymbols_ends (some d) t
  rw [h] at hends
  cases hends with
  | asked hphase htarget hopen hends =>
    obtain rfl := Option.some.inj htarget
    exact askEnds_sends ht hends

theorem references_sends (ht : t.peer.connection.Numbered) {uri : Text} {p : Position}
    {ls : List Location} (h : exec (references uri p) t = (.ok ls, t')) :
    t'.session = t.session ∧ Sends t.peer [.request (Call.references uri p false)] t'.peer ∧
      ∃ v, t'.peer.Answered (Call.references uri p false) v ∧
        Answer.locations (Subject.references uri p.line p.character).request v = .ok ls := by
  have hends := references_ends uri p t
  rw [h] at hends
  cases hends with
  | asked hphase hopen hends => exact askEnds_sends ht hends

/-- Closing a session sends at most that the server should shut down, and that it is let go. -/
theorem close_sends (ht : t.peer.connection.Numbered) {result : Except Fault Unit}
    (h : exec close t = (result, t')) :
    ∃ last, last <+: [.request Call.shutdown, .notification Call.exit] ∧
      Connection.Later t.peer.connection t'.peer.connection ∧
      t'.peer.connection.spoken =
        t.peer.connection.spoken ++ Outgoing.wire t.peer.connection.calls.nextId last := by
  have hends := close_ends t
  rw [h] at hends
  cases hends with
  | quiet es hclosed =>
    have hsent := Sends.of_quiet (quiet_noted es t.peer)
    exact ⟨[], List.nil_prefix, hsent.later, hsent.spoken⟩
  | @refused es reply result p hready hopen hask hresult =>
    have hquiet := quiet_noted es p
    obtain ⟨hasked, -⟩ | ⟨hlater, hspoken, -⟩ := request_sends ht hask
    · have hsent := hasked.quiet hquiet
      exact ⟨_, ⟨[.notification Call.exit], rfl⟩, hsent.later, hsent.spoken⟩
    · refine ⟨[], List.nil_prefix, hlater.trans hquiet.later, ?_⟩
      rw [hquiet.spoken, hspoken, Outgoing.wire, List.append_nil]
  | @agreed es v told result p q hready hopen hask htell hresult =>
    obtain ⟨hasked, -⟩ := request_answered ht hask
    cases told with
    | ok u =>
      have hsent := (hasked.trans (notify_sends htell)).quiet (quiet_noted es q)
      exact ⟨_, List.prefix_rfl, hsent.later, hsent.spoken⟩
    | error fault =>
      have hsent := hasked.quiet ((notify_quiet htell).trans (quiet_noted es q))
      exact ⟨_, ⟨[.notification Call.exit], rfl⟩, hsent.later, hsent.spoken⟩

end Session

end SymbolAtlas
