import SymbolAtlas.Proofs.Session.Documents
import SymbolAtlas.Proofs.Session.Exec
import SymbolAtlas.Proofs.Symbols.Answers

/-!
# How steps end

For each step of a session, all the ways in which it may end: its result, the session after it, and
what was done to the peer for it. A peer is only known by what it gives back, so these lists hold
for every peer. Journal entries are left open, since nothing depends on them.

* `Session.HandshakeEnds`, with `handshake_ends`;
* `Session.OpenEnds`, with `openDocument_ends`;
* `Session.AskEnds` — how a query ends that is asked, with `documentSymbols_ends`, `references_ends`
  and `workspaceSymbols_ends`;
* `Session.CloseEnds`, with `close_ends`.
-/

namespace SymbolAtlas.Session

open Lsp

variable {τ α : Type} [Peer τ]

/-! ## The handshake -/

/-- What the timeout and an error amount to in the handshake. -/
def handshakeVerdict (timeout : Timeout) (reply : Reply) : Except Fault Json :=
  reply.verdict timeout .handshakeTimedOut .handshakeRejected

theorem handshakeVerdict_among {timeout : Timeout} {reply : Reply} {fault : Fault}
    (h : handshakeVerdict timeout reply = .error fault) :
    fault.Among [.handshake, .transportClosed] :=
  Reply.verdict_among (fun _ => rfl) (fun _ => rfl) h

/-- How the handshake for the workspace at `root` may end. -/
inductive HandshakeEnds (disk : Disk) (processId : Int) (root : Path) (t : Talk τ) :
    Except Fault Json × Talk τ → Prop
  /-- It is not the time for it. -/
  | outOfPhase (h : t.session.phase ≠ .created) :
      HandshakeEnds disk processId root t
        (.error (.failure (.wrongPhase "initialize" t.session.phase [.created])), t)
  /-- The workspace has no absolute path. -/
  | unresolved {e : ResolveError} (h : t.session.phase = .created)
      (hroot : disk.resolve root = .error e) :
      HandshakeEnds disk processId root t (.error (.stray (.ofResolve e)),
        { t with session := { t.session with phase := .initializing } })
  /-- There is no answer. -/
  | unanswered {resolved : Path} {es : List Entry} {reply : Reply} {p : τ} {fault : Fault}
      (h : t.session.phase = .created) (hroot : disk.resolve root = .ok resolved)
      (hask : Peer.request (Call.handshake (clientInfo processId resolved)) (Peer.noted es t.peer) =
        (reply, p))
      (hverdict : handshakeVerdict t.session.timeout reply = .error fault) :
      HandshakeEnds disk processId root t (.error fault,
        ⟨fallen { t.session with phase := .initializing } fault, p⟩)
  /-- The server cannot be told that the handshake is done. -/
  | untold {resolved : Path} {es : List Entry} {v : Json} {p q : τ} {fault : Fault}
      (h : t.session.phase = .created) (hroot : disk.resolve root = .ok resolved)
      (hask : Peer.request (Call.handshake (clientInfo processId resolved)) (Peer.noted es t.peer) =
        (.result v, p))
      (htell : Peer.notify Call.initialized p = (.error fault, q)) :
      HandshakeEnds disk processId root t (.error fault,
        ⟨fallen { t.session with phase := .initializing } fault, q⟩)
  /-- It succeeds. -/
  | done {resolved : Path} {es es' : List Entry} {v : Json} {p q : τ}
      (h : t.session.phase = .created) (hroot : disk.resolve root = .ok resolved)
      (hask : Peer.request (Call.handshake (clientInfo processId resolved)) (Peer.noted es t.peer) =
        (.result v, p))
      (htell : Peer.notify Call.initialized p = (.ok (), q)) :
      HandshakeEnds disk processId root t (.ok v,
        ⟨{ t.session with capabilities := (v.field? "capabilities").getD .null,
                          phase := .initialized }, Peer.noted es' q⟩)

theorem handshake_ends (disk : Disk) (processId : Int) (root : Path) (t : Talk τ) :
    HandshakeEnds disk processId root t (exec (handshake disk processId root) t) := by
  unfold handshake
  rw [exec_bind, exec_expect]
  by_cases hphase : t.session.phase ≠ .created
  · rw [if_neg (by simpa using hphase)]
    exact .outOfPhase hphase
  rw [Classical.not_not] at hphase
  rw [if_pos (by simpa using hphase)]
  simp only [exec_bind, exec_enter, exec_resolve]
  cases hroot : disk.resolve root with
  | error e => exact .unresolved hphase hroot
  | ok resolved =>
    simp only [mapError_ok, exec_note, exec_closing, exec_bind, exec_ask, exec_await,
      exec_tell]
    generalize hnoted : Peer.noted _ t.peer = noted
    rcases hask : Peer.request (Call.handshake (clientInfo processId resolved)) noted with
      ⟨reply, p⟩
    subst hnoted
    cases hverdict : handshakeVerdict t.session.timeout reply with
    | error fault =>
      rw [handshakeVerdict] at hverdict
      simp only [hverdict]
      exact .unanswered hphase hroot hask hverdict
    | ok v =>
      rw [handshakeVerdict] at hverdict
      obtain rfl := Reply.verdict_eq_ok_iff.1 hverdict
      simp only [Reply.verdict]
      rcases htell : Peer.notify Call.initialized p with ⟨fault | u, q⟩
      · exact .untold hphase hroot hask htell
      · exact .done hphase hroot hask htell

/-! ## Opening a document -/

/-- How opening a document may end. -/
inductive OpenEnds (disk : Disk) (path : Path) (languageId : Text) (t : Talk τ) :
    Except Fault TextDocument × Talk τ → Prop
  /-- It is not the time for it. -/
  | outOfPhase (h : t.session.phase ∉ Phase.ready) :
      OpenEnds disk path languageId t
        (.error (.failure (.wrongPhase "open a document" t.session.phase Phase.ready)), t)
  /-- The file cannot be read. -/
  | unreadable {cause : String} (h : t.session.phase ∈ Phase.ready) :
      OpenEnds disk path languageId t (.error (.failure (.documentUnreadable path cause)),
        { t with session := { t.session with phase := .closed } })
  /-- The path is none. -/
  | astray {s : Stray} (h : t.session.phase ∈ Phase.ready) :
      OpenEnds disk path languageId t (.error (.stray s), t)
  /-- The document is open already. -/
  | again (es : List Entry) {text : String} {resolved : Path} {d : TextDocument}
      (h : t.session.phase ∈ Phase.ready) (htext : disk.readText path = .ok text)
      (hpath : disk.resolve path = .ok resolved)
      (hd : Fields.get? t.session.documents (resolved.uri : Text) = some d) :
      OpenEnds disk path languageId t (.ok d,
        ⟨t.session.withLast d, Peer.noted es t.peer⟩)
  /-- The server cannot be told about it. -/
  | untold {text : String} {resolved : Path} {fault : Fault} {p : τ}
      (h : t.session.phase ∈ Phase.ready) (htext : disk.readText path = .ok text)
      (hpath : disk.resolve path = .ok resolved)
      (hd : Fields.get? t.session.documents (resolved.uri : Text) = none)
      (htell : Peer.notify (Call.didOpen resolved.uri languageId documentVersion text) t.peer =
        (.error fault, p)) :
      OpenEnds disk path languageId t (.error fault, ⟨t.session.fallen fault, p⟩)
  /-- The document is opened. -/
  | opened (es : List Entry) {text : String} {resolved : Path} {p : τ}
      (h : t.session.phase ∈ Phase.ready) (htext : disk.readText path = .ok text)
      (hpath : disk.resolve path = .ok resolved)
      (hd : Fields.get? t.session.documents (resolved.uri : Text) = none)
      (htell : Peer.notify (Call.didOpen resolved.uri languageId documentVersion text) t.peer =
        (.ok (), p)) :
      OpenEnds disk path languageId t (.ok (documentAt resolved.uri languageId text),
        ⟨t.session.withOpened (documentAt resolved.uri languageId text), Peer.noted es p⟩)

theorem openDocument_ends (disk : Disk) (path : Path) (languageId : Text) (t : Talk τ) :
    OpenEnds disk path languageId t (exec (openDocument disk path languageId) t) := by
  unfold openDocument
  rw [exec_bind, exec_expect]
  by_cases hphase : t.session.phase ∉ Phase.ready
  · rw [if_neg hphase]
    exact .outOfPhase hphase
  rw [Classical.not_not] at hphase
  rw [if_pos hphase]
  dsimp only
  rw [exec_bind]
  unfold readDocument
  cases htext : disk.readText path with
  | error e =>
    cases e with
    | notUtf8 =>
      simp only [exec_closing, exec_failWith]
      exact .unreadable hphase
    | access e =>
      cases e with
      | nul | notEncodable => exact .astray hphase
      | _ =>
        simp only [exec_closing, exec_failWith]
        exact .unreadable hphase
  | ok text =>
    simp only [exec_pure, exec_bind, exec_resolve]
    cases hpath : disk.resolve path with
    | error e => exact .astray hphase
    | ok resolved =>
      simp only [mapError_ok, exec_current]
      cases hd : Fields.get? t.session.documents (resolved.uri : Text) with
      | some d =>
        simp only [exec_bind, exec_note, exec_update, exec_pure]
        exact .again [_] hphase htext hpath hd
      | none =>
        simp only [exec_bind, exec_closing, exec_tell, exec_update, exec_note, exec_pure]
        rcases htell :
          Peer.notify (Call.didOpen resolved.uri languageId documentVersion text) t.peer with
          ⟨fault | u, p⟩
        · exact .untold hphase htext hpath hd htell
        · -- the new session is spelled out before the two are compared
          have hends := fun es => OpenEnds.opened (t := t) es hphase htext hpath hd htell
          simp only [withOpened, documentAt] at hends
          exact hends [_]

/-! ## Queries -/

/-- What a reply to a query amounts to. -/
def queryVerdict (subject : Subject) (read : Json → Except Failure α) (timeout : Timeout)
    (reply : Reply) : Except Fault α :=
  match reply.verdict timeout (.queryTimedOut subject) (.queryRefused subject) with
  | .ok v => (read v).mapError .failure
  | .error e => .error e

/-- A query that succeeds was answered, and the answer could be read. -/
theorem queryVerdict_eq_ok {subject : Subject} {read : Json → Except Failure α} {timeout : Timeout}
    {reply : Reply} {a : α} (h : queryVerdict subject read timeout reply = .ok a) :
    ∃ v, reply = .result v ∧ read v = .ok a := by
  unfold queryVerdict at h
  split at h
  · next v hv =>
    refine ⟨v, Reply.verdict_eq_ok_iff.1 hv, ?_⟩
    cases hread : read v with
    | ok b =>
      rw [hread] at h
      cases h
      rfl
    | error f =>
      rw [hread] at h
      cases h
  · cases h

theorem queryVerdict_among {subject : Subject} {read : Json → Except Failure α}
    {timeout : Timeout} {reply : Reply} {fault : Fault}
    (hread : ∀ v f, read v = .error f → f.kind = .query)
    (h : queryVerdict subject read timeout reply = .error fault) :
    fault.Among [.query, .transportClosed] := by
  unfold queryVerdict at h
  split at h
  · next v hv =>
    rintro f rfl
    cases hf : read v with
    | ok a =>
      rw [hf] at h
      cases h
    | error e =>
      rw [hf] at h
      cases h
      simp [hread v f hf]
  · next e he =>
    cases h
    exact Reply.verdict_among (fun _ => rfl) (fun _ => rfl) he

/-- The session after a query with the given outcome. -/
def afterQuery (s : Session) : Except Fault α → Session
  | .ok _ => s
  | .error e => s.fallen e

/-- How a query ends that is asked. -/
inductive AskEnds (call : Call) (verdict : Timeout → Reply → Except Fault α) (t : Talk τ) :
    Except Fault α × Talk τ → Prop
  | mk (es es' : List Entry) {reply : Reply} {p : τ}
      (hask : Peer.request call (Peer.noted es t.peer) = (reply, p)) :
      AskEnds call verdict t (verdict t.session.timeout reply,
        ⟨t.session.afterQuery (verdict t.session.timeout reply), Peer.noted es' p⟩)

theorem exec_query (call : Call) (subject : Subject) (t : Talk τ) :
    exec (query call subject) t =
      ((Peer.request call t.peer).1.verdict t.session.timeout (.queryTimedOut subject)
        (.queryRefused subject), { t with peer := (Peer.request call t.peer).2 }) := by
  unfold query
  simp only [exec_bind, exec_ask, exec_await]

/-- A query that is put, read and noted, in a session that a failure closes. -/
theorem closing_ends {call : Call} {subject : Subject} {read : Json → Except Failure α}
    (before : SessionM τ Unit) {after : α → SessionM τ Unit} (t : Talk τ) (es : List Entry)
    (hbefore : exec before t = (.ok (), { t with peer := Peer.noted es t.peer }))
    (hafter : ∀ a u, ∃ es, exec (after a) u = (.ok (), { u with peer := Peer.noted es u.peer })) :
    AskEnds call (queryVerdict subject read) t (exec (closing do
      before
      let answer ← query call subject
      let a ← accept (read answer)
      after a
      return a) t) := by
  rw [exec_closing, exec_bind, hbefore]
  dsimp only
  rw [exec_bind, exec_query]
  rcases hask : Peer.request call (Peer.noted es t.peer) with ⟨reply, p⟩
  have ends : AskEnds call (queryVerdict subject read) t _ := .mk es [] hask
  unfold queryVerdict at ends
  cases hverdict : reply.verdict t.session.timeout (.queryTimedOut subject)
      (.queryRefused subject) with
  | error e =>
    rw [hverdict] at ends
    exact ends
  | ok v =>
    rw [hverdict] at ends
    dsimp only at ends ⊢
    rw [exec_bind, exec_accept]
    cases hread : read v with
    | error e =>
      rw [hread] at ends
      exact ends
    | ok a =>
      obtain ⟨es', hes'⟩ := hafter a ⟨t.session, p⟩
      have ends' : AskEnds call (queryVerdict subject read) t _ := .mk es es' hask
      unfold queryVerdict at ends'
      rw [hverdict] at ends'
      dsimp only at ends' ⊢
      rw [hread, mapError_ok] at ends'
      rw [mapError_ok]
      dsimp only
      rw [exec_bind, hes']
      exact ends'

/-- How the question for the symbols of a document may end. -/
inductive SymbolsEnds (document : Option TextDocument) (t : Talk τ) :
    Except Fault (List SymbolNode) × Talk τ → Prop
  /-- It is not the time for it. -/
  | outOfPhase (h : t.session.phase ≠ .documentOpen) :
      SymbolsEnds document t (.error (.failure
        (.wrongPhase "request document symbols" t.session.phase [.documentOpen])), t)
  /-- No document was opened, although one is open. -/
  | stranded (h : t.session.phase = .documentOpen)
      (hdocument : document.or t.session.document = none) :
      SymbolsEnds document t (.error (.failure (Invariant.never "document open without a document"
        [("state", .str t.session.phase.label)])), t)
  /-- The document is not open. -/
  | unopened {target : TextDocument} (h : t.session.phase = .documentOpen)
      (htarget : document.or t.session.document = some target)
      (hopen : Fields.has t.session.documents target.uri = false) :
      SymbolsEnds document t (.error (.failure (.symbolsOfUnopened target.uri)), t)
  /-- The question is asked. -/
  | asked {target : TextDocument} {end_ : Except Fault (List SymbolNode) × Talk τ}
      (h : t.session.phase = .documentOpen)
      (htarget : document.or t.session.document = some target)
      (hopen : Fields.has t.session.documents target.uri = true)
      (hends : AskEnds (Call.documentSymbol target.uri)
        (queryVerdict (.documentSymbols target.uri) (Answer.documentSymbols target.uri)) t end_) :
      SymbolsEnds document t end_

theorem documentSymbols_ends (document : Option TextDocument) (t : Talk τ) :
    SymbolsEnds document t (exec (documentSymbols document) t) := by
  unfold documentSymbols
  rw [exec_bind, exec_expect]
  by_cases hphase : t.session.phase ≠ .documentOpen
  · rw [if_neg (by simpa using hphase)]
    exact .outOfPhase hphase
  rw [Classical.not_not] at hphase
  rw [if_pos (by simpa using hphase)]
  dsimp only
  rw [exec_bind]
  unfold targetOf
  rw [exec_bind, exec_current]
  dsimp only
  cases htarget : document.or t.session.document with
  | none => exact .stranded hphase htarget
  | some target =>
    simp only [exec_pure, exec_bind, exec_current]
    split
    · next hopen =>
      refine .asked hphase htarget hopen ?_
      exact closing_ends _ t [_] (exec_note ..) fun _ _ => ⟨[_], exec_note ..⟩
    · next hopen => exact .unopened hphase htarget (by simpa using hopen)

/-- How the question for references may end. -/
inductive ReferencesEnds (uri : Text) (p : Position) (t : Talk τ) :
    Except Fault (List Location) × Talk τ → Prop
  /-- It is not the time for it. -/
  | outOfPhase (h : t.session.phase ≠ .documentOpen) :
      ReferencesEnds uri p t (.error (.failure
        (.wrongPhase "request references" t.session.phase [.documentOpen])), t)
  /-- The document is not open. -/
  | unopened (h : t.session.phase = .documentOpen)
      (hopen : Fields.has t.session.documents uri = false) :
      ReferencesEnds uri p t (.error (.failure (.referencesInUnopened uri)), t)
  /-- The question is asked. -/
  | asked {end_ : Except Fault (List Location) × Talk τ} (h : t.session.phase = .documentOpen)
      (hopen : Fields.has t.session.documents uri = true)
      (hends : AskEnds (Call.references uri p false)
        (queryVerdict (.references uri p.line p.character)
          (Answer.locations (Subject.references uri p.line p.character).request)) t end_) :
      ReferencesEnds uri p t end_

theorem references_ends (uri : Text) (p : Position) (t : Talk τ) :
    ReferencesEnds uri p t (exec (references uri p) t) := by
  unfold references
  rw [exec_bind, exec_expect]
  by_cases hphase : t.session.phase ≠ .documentOpen
  · rw [if_neg (by simpa using hphase)]
    exact .outOfPhase hphase
  rw [Classical.not_not] at hphase
  rw [if_pos (by simpa using hphase)]
  simp only [exec_bind, exec_current]
  split
  · next hopen =>
    refine .asked hphase hopen ?_
    exact closing_ends (pure ()) t [] rfl fun _ _ => ⟨[_], exec_note ..⟩
  · next hopen => exact .unopened hphase (by simpa using hopen)

/-- How a search of the workspace may end. -/
inductive SearchEnds (text : String) (t : Talk τ) : Except Fault (List SymbolNode) × Talk τ → Prop
  /-- It is not the time for it. -/
  | outOfPhase (h : t.session.phase ∉ Phase.ready) :
      SearchEnds text t (.error (.failure
        (.wrongPhase "search workspace symbols" t.session.phase Phase.ready)), t)
  /-- The question is asked. -/
  | asked {end_ : Except Fault (List SymbolNode) × Talk τ} (h : t.session.phase ∈ Phase.ready)
      (hends : AskEnds (Call.workspaceSymbol text)
        (queryVerdict (.workspaceSymbols text) Answer.workspaceSymbols) t end_) :
      SearchEnds text t end_

theorem workspaceSymbols_ends (text : String) (t : Talk τ) :
    SearchEnds text t (exec (workspaceSymbols text) t) := by
  unfold workspaceSymbols
  rw [exec_bind, exec_expect]
  by_cases hphase : t.session.phase ∉ Phase.ready
  · rw [if_neg hphase]
    exact .outOfPhase hphase
  rw [Classical.not_not] at hphase
  rw [if_pos hphase]
  refine .asked hphase ?_
  exact closing_ends _ t [_] (exec_note ..) fun _ _ => ⟨[_], exec_note ..⟩

/-! ## The end -/

/-- How closing a session may end. -/
inductive CloseEnds (t : Talk τ) : Except Fault Unit × Talk τ → Prop
  /-- Nothing is sent. -/
  | quiet (es : List Entry) (h : t.session.phase ∉ Phase.ready ∨ Peer.isClosed t.peer = true) :
      CloseEnds t (.ok (), ⟨{ t.session with phase := .closed }, Peer.noted es t.peer⟩)
  /-- The server does not agree. -/
  | refused (es : List Entry) {reply : Reply} {result : Except Fault Unit} {p : τ}
      (h : t.session.phase ∈ Phase.ready) (hopen : Peer.isClosed t.peer = false)
      (hask : Peer.request Call.shutdown t.peer = (reply, p))
      (hresult : ∀ f, result ≠ .error (.failure f)) :
      CloseEnds t (result, ⟨{ t.session with phase := .closed }, Peer.noted es p⟩)
  /-- The server agrees and is let go. -/
  | agreed (es : List Entry) {v : Json} {told result : Except Fault Unit} {p q : τ}
      (h : t.session.phase ∈ Phase.ready) (hopen : Peer.isClosed t.peer = false)
      (hask : Peer.request Call.shutdown t.peer = (.result v, p))
      (htell : Peer.notify Call.exit p = (told, q))
      (hresult : ∀ f, result = .error (.failure f) →
        told = .error (.failure f) ∧ f.kind ≠ .transportClosed) :
      CloseEnds t (result, ⟨{ t.session with phase := .closed }, Peer.noted es q⟩)

theorem exec_sendExit (t : Talk τ) {told : Except Fault Unit} {q : τ}
    (h : Peer.notify Call.exit t.peer = (told, q)) :
    ∃ es result, exec sendExit t = (result, ⟨t.session, Peer.noted es q⟩) ∧
      ∀ f, result = .error (.failure f) →
        told = .error (.failure f) ∧ f.kind ≠ .transportClosed := by
  unfold sendExit
  simp only [exec_tryCatch, exec_bind, exec_tell, h]
  cases told with
  | ok u => exact ⟨[_], .ok (), exec_note .., by simp⟩
  | error fault =>
    dsimp only
    split
    · exact ⟨[_], .ok (), exec_note .., by simp⟩
    · next hkind =>
      refine ⟨[], .error fault, rfl, fun f hf => ?_⟩
      obtain rfl : fault = .failure f := by simpa using hf
      exact ⟨rfl, by simpa [Fault.isKind] using hkind⟩

theorem close_ends (t : Talk τ) : CloseEnds t (exec close t) := by
  unfold close
  rw [exec_bind, exec_current]
  simp only [exec_bind, exec_enter]
  by_cases hphase : t.session.phase ∉ Phase.ready
  · rw [if_neg hphase]
    exact .quiet [] (.inl hphase)
  rw [Classical.not_not] at hphase
  rw [if_pos hphase]
  simp only [exec_bind, exec_get]
  split
  · next hclosed => exact .quiet [_] (.inr hclosed)
  next hopen =>
  rw [Bool.not_eq_true] at hopen
  unfold takeLeave noteUnfinished
  simp only [exec_bind, exec_ask]
  rcases hask : Peer.request Call.shutdown t.peer with ⟨reply, p⟩
  cases reply with
  | result v =>
    rcases htell : Peer.notify Call.exit p with ⟨told, q⟩
    obtain ⟨es, result, hexec, hresult⟩ :=
      exec_sendExit ⟨{ t.session with phase := .closed }, p⟩ htell
    dsimp only
    rw [hexec]
    exact .agreed es hphase hopen hask htell hresult
  | refused r => exact .refused [_] hphase hopen hask (by simp)
  | lost l => exact .refused [_] hphase hopen hask (by simp)
  | raised kind text => exact .refused [] hphase hopen hask (by simp)
  | silent =>
    simp only [exec_bind, exec_current]
    cases t.session.timeout.wait with
    | ok u => exact .refused [_] hphase hopen hask (by simp)
    | error e => exact .refused [] hphase hopen hask (by simp)

end SymbolAtlas.Session
