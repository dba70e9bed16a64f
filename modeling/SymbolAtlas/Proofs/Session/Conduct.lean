import SymbolAtlas.Proofs.Session.Exchanges

/-!
# How a session conducts itself

Whatever is done with a session and whatever its line does, the server sees an orderly conversation:
a greeting, then documents and questions about them, then the leave.

* `Allowed` — what may be exchanged next, given what was exchanged so far;
* `Course` — a log in which every exchange was allowed, with `Course.allowed`;
* `Session.Coherent` — how the documents of a session fit its phase and the log;
* `Sound` — the invariant of a session on a line, with `Step.sound` and `Sound.performAll`;
* `Conformant` — the protocol as a server sees it, with `performAll_conformant`.
-/

namespace SymbolAtlas

open Lsp

/-! ## Courses -/

/-- The document is opened. -/
def Exchange.Opens (uri : Text) (e : Exchange) : Prop :=
  ∃ languageId version text, e.call = Call.didOpen uri languageId version text

/-- The document was opened. -/
def Opened (log : List Exchange) (uri : Text) : Prop :=
  ∃ e ∈ log, e.Opens uri

/-- What may be exchanged between the greeting and the leave. -/
inductive Middle (past : List Exchange) : Exchange → Prop
  | opening {uri : Text} {languageId : Text} {text : String} (hnew : ¬ Opened past uri) :
      Middle past (.told (Call.didOpen uri languageId Session.documentVersion text))
  | symbols {uri : Text} {reply : Reply} (hopen : Opened past uri) :
      Middle past (.asked (Call.documentSymbol uri) reply)
  | references {uri : Text} {p : Position} {reply : Reply} (hopen : Opened past uri) :
      Middle past (.asked (Call.references uri p false) reply)
  | search {text : String} {reply : Reply} :
      Middle past (.asked (Call.workspaceSymbol text) reply)

/-- What was exchanged so far when the server is ready for more. -/
inductive Ready : List Exchange → Prop
  | greeted (client : ClientInfo) (v : Json) :
      Ready [.asked (Call.handshake client) (.result v), .told Call.initialized]
  | middle {past : List Exchange} {e : Exchange} (h : Ready past) (he : Middle past e) :
      Ready (past ++ [e])

/-- What may be exchanged next. -/
inductive Allowed : List Exchange → Exchange → Prop
  | greeting (client : ClientInfo) (reply : Reply) :
      Allowed [] (.asked (Call.handshake client) reply)
  | greeted (client : ClientInfo) (v : Json) :
      Allowed [.asked (Call.handshake client) (.result v)] (.told Call.initialized)
  | middle {past : List Exchange} {e : Exchange} (h : Ready past) (he : Middle past e) :
      Allowed past e
  | leave {past : List Exchange} (h : Ready past) (reply : Reply) :
      Allowed past (.asked Call.shutdown reply)
  | left {past : List Exchange} (h : Ready past) (v : Json) :
      Allowed (past ++ [.asked Call.shutdown (.result v)]) (.told Call.exit)

/-- A log in which everything was allowed. -/
inductive Course : List Exchange → Prop
  | nil : Course []
  | snoc {past : List Exchange} {e : Exchange} (h : Course past) (he : Allowed past e) :
      Course (past ++ [e])

theorem Course.greeting (client : ClientInfo) (reply : Reply) :
    Course [.asked (Call.handshake client) reply] :=
  .snoc .nil (.greeting client reply)

theorem Ready.course {log : List Exchange} (h : Ready log) : Course log := by
  induction h with
  | greeted client v => exact .snoc (.greeting client (.result v)) (.greeted client v)
  | middle h he ih => exact .snoc ih (.middle h he)

/-- Everything in a course was allowed after what had been exchanged by then. -/
theorem Course.allowed {log past rest : List Exchange} {e : Exchange} (h : Course log)
    (hlog : log = past ++ e :: rest) : Allowed past e := by
  induction h generalizing rest with
  | nil => simp at hlog
  | snoc h he ih =>
    obtain rfl | ⟨rest, x, rfl⟩ := List.eq_nil_or_concat rest
    · obtain ⟨rfl, he'⟩ := List.append_inj' hlog rfl
      cases he'
      exact he
    · rw [List.concat_eq_append, ← List.cons_append, ← List.append_assoc] at hlog
      exact ih (List.append_inj' hlog rfl).1

/-! ## The invariant -/

theorem opened_append {log log' : List Exchange} {uri : Text} :
    Opened (log ++ log') uri ↔ Opened log uri ∨ Opened log' uri := by
  simp [Opened, or_and_right, exists_or]

@[simp] theorem opened_nil (uri : Text) : ¬ Opened [] uri := by
  simp [Opened]

theorem Exchange.opens_didOpen {uri uri' : Text} {languageId : Text} {text : String} {version : Int} :
    (Exchange.told (Call.didOpen uri' languageId version text)).Opens uri ↔ uri' = uri := by
  constructor
  · rintro ⟨languageId', version', text', h⟩
    have hparams := congrArg Call.params h
    simp [call, Call.didOpen] at hparams
    exact hparams.1
  · rintro rfl
    exact ⟨_, _, _, rfl⟩

theorem Exchange.method_of_opens {uri : Text} {e : Exchange} (h : e.Opens uri) :
    e.call.method = "textDocument/didOpen" := by
  obtain ⟨languageId, version, text, h⟩ := h
  rw [h]
  rfl

/-- Exchanges of other methods open nothing. -/
theorem opened_append_of_method {log log' : List Exchange} {uri : Text}
    (h : ∀ e ∈ log', e.call.method ≠ "textDocument/didOpen") :
    Opened (log ++ log') uri ↔ Opened log uri := by
  rw [opened_append, or_iff_left]
  rintro ⟨e, he, hopens⟩
  exact h e he (Exchange.method_of_opens hopens)

/-- How the documents of a session fit its phase and the exchanges so far. -/
structure Session.Coherent (s : Session) (log : List Exchange) : Prop extends s.Tidy where
  /-- The open documents are those that the server was told about. -/
  opened : ∀ uri, Fields.has s.documents uri = true ↔ Opened log uri

/-- The invariant of a session on a line. -/
structure Sound (t : Talk Line) : Prop extends t.session.Coherent t.peer.log where
  course : Course t.peer.log
  fresh : t.session.phase = .created → t.peer.log = []
  ready : t.session.phase ∈ Phase.ready → Ready t.peer.log

/-- A new session on a line. -/
def Talk.start (timeout : Timeout) (oracle : Oracle) : Talk Line :=
  ⟨{ timeout := timeout }, { oracle := oracle }⟩

namespace Sound

theorem start (timeout : Timeout) (oracle : Oracle) : Sound (Talk.start timeout oracle) where
  toTidy := .of_empty rfl rfl (by simp [Talk.start])
  opened uri := by simp [Talk.start, Fields.has]
  course := .nil
  fresh _ := rfl
  ready h := by simp [Talk.start, Phase.ready] at h

variable {t : Talk Line} {q : Line}

theorem closed (h : Sound t) (hcourse : Course q.log)
    (hopened : ∀ uri, Opened q.log uri ↔ Opened t.peer.log uri) :
    Sound ⟨{ t.session with phase := .closed }, q⟩ where
  toTidy := h.toTidy.closed
  opened uri := (h.opened uri).trans (hopened uri).symm
  course := hcourse
  fresh h := by cases h
  ready h := by simp [Phase.ready] at h

/-- A session that is ready goes on being so, or is closed by a failure. -/
theorem afterQuery {α : Type} (h : Sound t) (hphase : t.session.phase ∈ Phase.ready)
    (hready : Ready q.log) (hopened : ∀ uri, Opened q.log uri ↔ Opened t.peer.log uri)
    (outcome : Except Fault α) : Sound ⟨t.session.afterQuery outcome, q⟩ := by
  have hstay : Sound ⟨t.session, q⟩ :=
    { h with
      course := hready.course
      fresh := fun (hcreated : t.session.phase = .created) => by
        simp [hcreated, Phase.ready] at hphase
      ready := fun _ => hready
      opened := fun uri => (h.opened uri).trans (hopened uri).symm }
  cases outcome with
  | ok a => exact hstay
  | error fault =>
    cases fault with
    | stray e => exact hstay
    | failure f => exact h.closed hready.course hopened

end Sound

/-- A question that a session permits is in order. -/
theorem Session.Permits.middle {t : Talk Line} {call : Call} (hcall : t.session.Permits call)
    (h : Sound t) (reply : Reply) : Middle t.peer.log (.asked call reply) := by
  cases hcall with
  | symbols hopen => exact .symbols ((h.opened _).1 hopen)
  | references hopen p => exact .references ((h.opened _).1 hopen)
  | search text => exact .search

theorem Session.Permits.method {s : Session} {call : Call} (hcall : s.Permits call) :
    call.method ≠ "textDocument/didOpen" := by
  cases hcall <;> simp [Call.documentSymbol, Call.references, Call.workspaceSymbol]

theorem Farewell.course {log sent : List Exchange} (hsent : Farewell sent) (h : Ready log) :
    Course (log ++ sent) := by
  cases hsent with
  | silent => exact (List.append_nil log).symm ▸ h.course
  | asked reply => exact h.course.snoc (.leave h reply)
  | told v =>
    have hasked := h.course.snoc (.leave h (.result v))
    exact List.append_cons .. ▸ hasked.snoc (.left h v)

theorem Farewell.method {sent : List Exchange} (hsent : Farewell sent) :
    ∀ e ∈ sent, e.call.method ≠ "textDocument/didOpen" := by
  cases hsent <;> simp [Exchange.call, Call.shutdown, Call.exit]

namespace Step

open Session

variable {t t' : Talk Line} {result : Except Fault Unit}

/-- A handshake starts from nothing, whatever becomes of it. -/
theorem sound_of_created {s : Session} {q : Line} (h : Sound t) (hphase : t.session.phase = .created)
    (hdocuments : s.documents = t.session.documents) (hdocument : s.document = t.session.document)
    (hopen : s.phase ≠ .created ∧ s.phase ≠ .documentOpen) (hcourse : Course q.log)
    (hready : s.phase ∈ Phase.ready → Ready q.log)
    (hmethod : ∀ e ∈ q.log, e.call.method ≠ "textDocument/didOpen") : Sound ⟨s, q⟩ := by
  have hempty := h.empty (by simp [hphase])
  rw [← hdocuments, ← hdocument] at hempty
  exact
    { Tidy.of_empty hempty.1 hempty.2 hopen.2 with
      opened := fun uri => by
        have hlog : Opened ([] ++ q.log) uri ↔ Opened [] uri := opened_append_of_method hmethod
        simp only [List.nil_append, opened_nil, iff_false] at hlog
        simp [hempty.1, Fields.has, hlog]
      course := hcourse
      fresh := fun hcreated => absurd hcreated hopen.1
      ready := hready }

theorem sound (hstep : Step t result t') (h : Sound t) : Sound t' := by
  cases hstep with
  | rejected hkind => exact h
  | stranded hphase hdocument => exact h
  | @ungreeted client reply fault q hphase hlog hkind =>
    rw [h.fresh hphase, List.nil_append] at hlog
    have hfallen := fallen_phase { t.session with phase := .initializing } fault
    refine sound_of_created h hphase (by simp) (by simp) ?_ ?_ ?_ ?_
    · obtain hfallen | hfallen := hfallen <;> simp [hfallen]
    · obtain hlog | hlog := hlog
      · exact hlog ▸ .nil
      · exact hlog ▸ .greeting client reply
    · obtain hfallen | hfallen := hfallen <;> simp [hfallen, Phase.ready]
    · obtain hlog | hlog := hlog <;> simp [hlog, Exchange.call, Call.handshake, Call.handshakeWith]
  | @greeted client v capabilities q hphase hlog =>
    rw [h.fresh hphase, List.nil_append] at hlog
    have hready : Ready q.log := hlog ▸ .greeted client v
    refine sound_of_created h hphase rfl rfl (by simp) hready.course (fun _ => hready) ?_
    simp [hlog, Exchange.call, Call.handshake, Call.handshakeWith, Call.initialized]
  | unopened fault hphase hlog hkind =>
    refine h.afterQuery hphase ?_ ?_ (.error fault : Except Fault Unit)
    · exact hlog ▸ h.ready hphase
    · simp [hlog]
  | reopened hphase hd =>
    exact
      { h.withLast hphase hd with
        opened := h.opened
        course := h.course
        fresh := h.fresh
        ready := h.ready }
  | @opened uri languageId text q hphase hnew hlog =>
    have hready : Ready q.log := by
      rw [hlog]
      refine (h.ready hphase).middle (.opening ?_)
      rw [← h.opened, Fields.has, hnew]
      simp
    exact
      { h.withOpened (d := documentAt uri languageId text) rfl with
        opened := fun uri' => by
          rw [hlog, opened_append, ← h.opened, Session.withOpened, Fields.has, Fields.get?_put,
            Fields.has]
          simp only [Opened, List.mem_singleton, exists_eq_left, Exchange.opens_didOpen, documentAt]
          by_cases heq : uri = uri' <;> simp [heq]
        course := hready.course
        fresh := fun hcreated => by cases hcreated
        ready := fun _ => hready }
  | @asked call reply result q hphase hcall hlog hkind =>
    have hmiddle := hcall.middle h reply
    obtain hlog | hlog := hlog
    · exact h.afterQuery hphase (hlog ▸ h.ready hphase) (by simp [hlog]) result
    · refine h.afterQuery hphase (hlog ▸ (h.ready hphase).middle hmiddle) (fun uri => ?_) result
      rw [hlog]
      exact opened_append_of_method (by simpa [Exchange.call] using hcall.method)
  | closed sent hsent hlog hkind =>
    obtain rfl | ⟨hphase, hsent⟩ := hsent
    · rw [List.append_nil] at hlog
      exact h.closed (hlog ▸ h.course) (by simp [hlog])
    · refine h.closed (hlog ▸ hsent.course (h.ready hphase)) fun uri => ?_
      rw [hlog]
      exact opened_append_of_method hsent.method

end Step

/-- Whatever is done, the invariant holds afterwards. -/
theorem Sound.performAll {t : Talk Line} (h : Sound t) (ops : List Operation) :
    Sound (Operation.performAll ops t) := by
  induction ops generalizing t with
  | nil => exact h
  | cons op ops ih => exact ih ((op.step t).sound h)

/-! ## The protocol -/

/-- What a server may be sent between the greeting and the leave, any number of times. -/
inductive MiddleCall : Call → Prop
  | didOpen (uri : Text) (languageId : Text) (version : Int) (text : String) :
      MiddleCall (Call.didOpen uri languageId version text)
  | documentSymbol (uri : Text) : MiddleCall (Call.documentSymbol uri)
  | references (uri : Text) (p : Position) (includeDeclaration : Bool) :
      MiddleCall (Call.references uri p includeDeclaration)
  | workspaceSymbol (text : String) : MiddleCall (Call.workspaceSymbol text)

/-- Whenever a message was sent, something that meets the condition had been exchanged before. -/
def Preceded (log : List Exchange) (call : Call) (P : Exchange → Prop) : Prop :=
  ∀ past e rest, log = past ++ e :: rest → e.call = call → ∃ x ∈ past, P x

/-- The protocol as a server sees it, in the messages that were passed on to it. -/
structure Conformant (log : List Exchange) : Prop where
  /-- The messages are the beginning of a conversation with a greeting and a leave. -/
  word : ∃ client body, (∀ call ∈ body, MiddleCall call) ∧
    log.map Exchange.call <+:
      Call.handshake client :: Call.initialized :: (body ++ [Call.shutdown, Call.exit])
  greetedOnce : log.Pairwise fun a b =>
    ¬ (a.call.method = "initialize" ∧ b.call.method = "initialize")
  leftOnce : log.Pairwise fun a b => ¬ (a.call.method = "shutdown" ∧ b.call.method = "shutdown")
  greeted : Preceded log Call.initialized fun x =>
    ∃ client v, x = .asked (Call.handshake client) (.result v)
  openedOnce : ∀ uri, log.Pairwise fun a b => ¬ (a.Opens uri ∧ b.Opens uri)
  symbolsOpened : ∀ uri, Preceded log (Call.documentSymbol uri) (Exchange.Opens uri)
  referencesOpened : ∀ uri p includeDeclaration,
    Preceded log (Call.references uri p includeDeclaration) (Exchange.Opens uri)
  agreed : Preceded log Call.exit fun x => ∃ v, x = .asked Call.shutdown (.result v)
  /-- Nothing follows the leave but the server's being let go. -/
  last : ∀ past e rest, log = past ++ e :: rest → e.call = Call.shutdown →
    rest.map Exchange.call <+: [Call.exit]

theorem Middle.call {past : List Exchange} {e : Exchange} (h : Middle past e) :
    MiddleCall e.call := by
  cases h with
  | opening hnew => exact .didOpen ..
  | symbols hopen => exact .documentSymbol _
  | references hopen => exact .references ..
  | search => exact .workspaceSymbol _

theorem MiddleCall.method {call : Call} (h : MiddleCall call) :
    call.method ∉ ["initialize", "initialized", "shutdown", "exit"] := by
  cases h <;>
    simp [Call.didOpen, Call.documentSymbol, Call.references, Call.workspaceSymbol]

theorem Ready.word {log : List Exchange} (h : Ready log) :
    ∃ client body, (∀ call ∈ body, MiddleCall call) ∧
      log.map Exchange.call = Call.handshake client :: Call.initialized :: body := by
  induction h with
  | greeted client v => exact ⟨client, [], by simp, rfl⟩
  | @middle past e h he ih =>
    obtain ⟨client, body, hbody, hlog⟩ := ih
    refine ⟨client, body ++ [e.call], ?_, by simp [hlog]⟩
    simpa [or_imp, forall_and] using ⟨hbody, he.call⟩

/-- A server that is ready was neither asked to leave nor let go. -/
theorem Ready.method {log : List Exchange} (h : Ready log) :
    ∀ x ∈ log, x.call.method ∉ ["shutdown", "exit"] := by
  obtain ⟨client, body, hbody, hlog⟩ := h.word
  intro x hx
  have hcall : x.call ∈ log.map Exchange.call := List.mem_map_of_mem hx
  rw [hlog, List.mem_cons, List.mem_cons] at hcall
  obtain hcall | hcall | hcall := hcall
  · simp [hcall, Call.handshake, Call.handshakeWith]
  · simp [hcall, Call.initialized]
  · have := (hbody _ hcall).method
    simp_all

namespace Allowed

variable {past : List Exchange} {e x : Exchange}

theorem eq_nil (h : Allowed past e) (he : e.call.method = "initialize") : past = [] := by
  cases h with
  | greeting client reply => rfl
  | middle h hmiddle => simpa [he] using hmiddle.call.method
  | _ => simp [Exchange.call, Call.initialized, Call.shutdown, Call.exit] at he

theorem ready (h : Allowed past e) (he : e.call.method = "shutdown") : Ready past := by
  cases h with
  | leave h reply => exact h
  | middle h hmiddle => exact h
  | _ =>
    simp [Exchange.call, Call.handshake, Call.handshakeWith, Call.initialized, Call.exit] at he

theorem greeted_of_initialized (h : Allowed past e) (he : e.call = Call.initialized) :
    ∃ x ∈ past, ∃ client v, x = .asked (Call.handshake client) (.result v) := by
  cases h with
  | greeted client v => exact ⟨_, List.mem_singleton_self _, client, v, rfl⟩
  | middle h hmiddle => simpa [he, Call.initialized] using hmiddle.call.method
  | _ =>
    simp [Exchange.call, Call.handshake, Call.handshakeWith, Call.initialized, Call.shutdown,
      Call.exit] at he

theorem agreed_of_exit (h : Allowed past e) (he : e.call = Call.exit) :
    ∃ x ∈ past, ∃ v, x = .asked Call.shutdown (.result v) := by
  cases h with
  | left h v => exact ⟨_, by simp, v, rfl⟩
  | middle h hmiddle => simpa [he, Call.exit] using hmiddle.call.method
  | _ =>
    simp [Exchange.call, Call.handshake, Call.handshakeWith, Call.initialized, Call.shutdown,
      Call.exit] at he

theorem middle_of_method (h : Allowed past e)
    (he : e.call.method ∉ ["initialize", "initialized", "shutdown", "exit"]) : Middle past e := by
  cases h with
  | middle h hmiddle => exact hmiddle
  | _ =>
    simp [Exchange.call, Call.handshake, Call.handshakeWith, Call.initialized, Call.shutdown,
      Call.exit] at he

theorem not_opened (h : Allowed past e) {uri : Text} (he : e.Opens uri) : ¬ Opened past uri := by
  cases h.middle_of_method (by simp [Exchange.method_of_opens he]) with
  | opening hnew => exact Exchange.opens_didOpen.1 he ▸ hnew
  | _ =>
    have hmethod := Exchange.method_of_opens he
    simp [Exchange.call, Call.documentSymbol, Call.references, Call.workspaceSymbol] at hmethod

theorem opened_of_symbols (h : Allowed past e) {uri : Text}
    (he : e.call = Call.documentSymbol uri) : Opened past uri := by
  cases h.middle_of_method (by simp [he, Call.documentSymbol]) with
  | symbols hopen =>
    obtain rfl : _ = uri := by simpa [Exchange.call, Call.documentSymbol, documentId] using he
    exact hopen
  | _ =>
    simp [Exchange.call, Call.didOpen, Call.documentSymbol, Call.references,
      Call.workspaceSymbol] at he

theorem opened_of_references (h : Allowed past e) {uri : Text} {p : Position}
    {includeDeclaration : Bool} (he : e.call = Call.references uri p includeDeclaration) :
    Opened past uri := by
  cases h.middle_of_method (by simp [he, Call.references]) with
  | references hopen =>
    have hparams := congrArg Call.params he
    simp [Exchange.call, Call.references, documentId] at hparams
    exact hparams.2.1 ▸ hopen
  | _ =>
    simp [Exchange.call, Call.didOpen, Call.documentSymbol, Call.references,
      Call.workspaceSymbol] at he

/-- After the leave the server is let go, if it agreed. -/
theorem eq_exit (h : Allowed (past ++ [x]) e) (hx : x.call.method = "shutdown") :
    e = .told Call.exit := by
  have hready : ¬ Ready (past ++ [x]) := fun hready => by
    simpa [hx] using hready.method x (by simp)
  generalize hlog : past ++ [x] = log at h hready
  cases h with
  | greeting client reply => simp at hlog
  | greeted client v =>
    obtain rfl : x = .asked (Call.handshake client) (.result v) := by
      simpa using congrArg List.getLast? hlog
    simp [Exchange.call, Call.handshake, Call.handshakeWith] at hx
  | middle h hmiddle => exact absurd h hready
  | leave h reply => exact absurd h hready
  | left h v => rfl

/-- A server that was let go is sent nothing more. -/
theorem not_after_exit : ¬ Allowed (past ++ [.told Call.exit]) e := by
  intro h
  have hready : ¬ Ready (past ++ [.told Call.exit]) := fun hready => by
    simpa [Exchange.call, Call.exit] using hready.method (.told Call.exit) (by simp)
  generalize hlog : past ++ [.told Call.exit] = log at h hready
  cases h with
  | greeting client reply => simp at hlog
  | greeted client v => simpa using congrArg List.getLast? hlog
  | middle h hmiddle => exact hready h
  | leave h reply => exact hready h
  | left h v => simpa using congrArg List.getLast? hlog

end Allowed

namespace Course

variable {log : List Exchange}

theorem pairwise {R : Exchange → Exchange → Prop} (h : Course log)
    (hR : ∀ past e, Allowed past e → ∀ x ∈ past, R x e) : log.Pairwise R := by
  induction h with
  | nil => exact .nil
  | snoc h he ih =>
    refine List.pairwise_append.2 ⟨ih, List.pairwise_singleton .., fun x hx y hy => ?_⟩
    rw [List.mem_singleton.1 hy]
    exact hR _ _ he x hx

theorem word (h : Course log) :
    ∃ client body, (∀ call ∈ body, MiddleCall call) ∧
      log.map Exchange.call <+:
        Call.handshake client :: Call.initialized :: (body ++ [Call.shutdown, Call.exit]) := by
  cases h with
  | nil => exact ⟨⟨0, "", ""⟩, [], by simp, List.nil_prefix⟩
  | snoc h he =>
    cases he with
    | greeting client reply => exact ⟨client, [], by simp, by simp [Exchange.call]⟩
    | greeted client v => exact ⟨client, [], by simp, by simp [Exchange.call]⟩
    | middle h he =>
      obtain ⟨client, body, hbody, hlog⟩ := (h.middle he).word
      exact ⟨client, body, hbody, by simp [hlog]⟩
    | leave h reply =>
      obtain ⟨client, body, hbody, hlog⟩ := h.word
      exact ⟨client, body, hbody, by simp [hlog, Exchange.call]⟩
    | left hready v =>
      obtain ⟨client, body, hbody, hlog⟩ := hready.word
      exact ⟨client, body, hbody, by simp [hlog, Exchange.call]⟩

theorem last (h : Course log) {past rest : List Exchange} {e : Exchange}
    (hlog : log = past ++ e :: rest) (he : e.call = Call.shutdown) :
    rest.map Exchange.call <+: [Call.exit] := by
  match rest with
  | [] => exact List.nil_prefix
  | x :: rest =>
    have hx : x = .told Call.exit :=
      (h.allowed (show log = (past ++ [e]) ++ x :: rest by simp [hlog])).eq_exit (he ▸ rfl)
    match rest with
    | [] => simp [hx, Exchange.call]
    | y :: rest =>
      have hy : Allowed (past ++ [e] ++ [x]) y := h.allowed (by simpa using hlog)
      exact absurd (hx ▸ hy) Allowed.not_after_exit

theorem conformant (h : Course log) : Conformant log where
  word := h.word
  greetedOnce := h.pairwise fun past e he x hx ⟨_, hmethod⟩ => by
    simp [he.eq_nil hmethod] at hx
  leftOnce := h.pairwise fun past e he x hx ⟨hmethod', hmethod⟩ => by
    simpa [hmethod'] using (he.ready hmethod).method x hx
  greeted past e rest hlog he := (h.allowed hlog).greeted_of_initialized he
  openedOnce uri := h.pairwise fun past e he x hx ⟨hopens', hopens⟩ =>
    he.not_opened hopens ⟨x, hx, hopens'⟩
  symbolsOpened uri past e rest hlog he := (h.allowed hlog).opened_of_symbols he
  referencesOpened uri p d past e rest hlog he := (h.allowed hlog).opened_of_references he
  agreed past e rest hlog he := (h.allowed hlog).agreed_of_exit he
  last past e rest hlog he := h.last hlog he

end Course

/-- A server is sent what the protocol allows, whatever is done with the session and whatever
becomes of each message. -/
theorem performAll_conformant (timeout : Timeout) (oracle : Oracle) (ops : List Operation) :
    Conformant (Operation.performAll ops (Talk.start timeout oracle)).peer.log :=
  ((Sound.start timeout oracle).performAll ops).course.conformant

end SymbolAtlas
