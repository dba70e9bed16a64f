import SymbolAtlas.Proofs.Disk.Addresses
import SymbolAtlas.Proofs.Disk.Resolved
import SymbolAtlas.Proofs.Session.Leave

/-!
# Documents that are opened one after the other

The documents of a session are kept by the addresses of their files. An address tells the bytes of a
resolved path, so files are never mixed up: what comes of opening a file is the document that the
server was sent when the file was opened first, and a file whose resolved path has other bytes has
another document. That stays so however many files are opened, and whatever becomes of the files
meanwhile. Paths that are written as directories list them are the same just if their bytes are;
written by hand, with surrogates for the bytes of a character, two paths may lead to one file.

* `TextDocument.opening` — the message that a document is sent with;
* `Session.Delivered` — the open documents are those that were sent, with `Step.delivered`;
* `Opening` — a file that is to be opened, with `Opening.run_eq` for what comes of it;
* `Receptive` — a session whose documents are in order, on a line that takes what is sent;
* `Opening.Outcome`, `Receptive.runAll` — what comes of several files;
* `Receptive.run_again`, `Receptive.run_new`, `Receptive.same_iff` — opening a file that is open,
  one that is not, and when two files have the same document;
* `documents_identified` — the same bytes have the same document, other bytes another one.
-/

namespace SymbolAtlas

open Lsp

/-! ## Documents that were sent -/

/-- The message that a document is sent with. -/
def TextDocument.opening (d : TextDocument) : Exchange :=
  .told (Call.didOpen d.uri d.languageId d.version d.text)

theorem TextDocument.opens_opening {d : TextDocument} {uri : Text} :
    d.opening.Opens uri ↔ d.uri = uri :=
  Exchange.opens_didOpen

/-- The document was sent, and nothing else was sent for its address. -/
def SentOnce (log : List Exchange) (d : TextDocument) : Prop :=
  ∃ before after, log = before ++ d.opening :: after ∧ ¬ Opened (before ++ after) d.uri

/-- Every open document was sent as it is. -/
def Session.Delivered (s : Session) (log : List Exchange) : Prop :=
  ∀ uri d, Fields.get? s.documents uri = some d → d.opening ∈ log

namespace Session

@[simp] theorem afterQuery_documents {α : Type} (s : Session) (outcome : Except Fault α) :
    (s.afterQuery outcome).documents = s.documents := by
  cases outcome with
  | ok a => rfl
  | error fault => exact s.fallen_documents fault

theorem Delivered.mono {s s' : Session} {log log' : List Exchange} (h : s.Delivered log)
    (hdocuments : s'.documents = s.documents) (hlog : log <+: log') : s'.Delivered log' :=
  fun uri d hd => hlog.subset (h uri d (hdocuments ▸ hd))

end Session

/-- A step sends the document that it opens, and no others are opened. -/
theorem Step.delivered {t t' : Talk Line} {result : Except Fault Unit} (hstep : Step t result t')
    (h : t.session.Delivered t.peer.log) : t'.session.Delivered t'.peer.log := by
  cases hstep with
  | rejected hkind => exact h
  | stranded hphase hdocument => exact h
  | ungreeted client reply fault hphase hlog hkind =>
    refine h.mono (by simp) ?_
    obtain hlog | hlog := hlog <;> simp [hlog]
  | greeted client v hphase hlog => exact h.mono rfl (by simp [hlog])
  | unopened fault hphase hlog hkind => exact h.mono (by simp) (by simp [hlog])
  | reopened hphase hd => exact h
  | @opened uri languageId text q hphase hnew hlog =>
    intro uri' d hd
    rw [Session.withOpened, Fields.get?_put] at hd
    dsimp only
    rw [hlog]
    split at hd
    · cases hd
      exact List.mem_append_right _ (List.mem_singleton_self _)
    · exact List.mem_append_left _ (h uri' d hd)
  | asked outcome hphase hcall hlog hkind =>
    refine h.mono (by simp) ?_
    obtain hlog | hlog := hlog <;> simp [hlog]
  | closed sent hsent hlog hkind => exact h.mono rfl (by simp [hlog])

/-- Whatever is done, the open documents are those that were sent. -/
theorem delivered_performAll {t : Talk Line} (h : t.session.Delivered t.peer.log)
    (ops : List Operation) :
    (Operation.performAll ops t).session.Delivered (Operation.performAll ops t).peer.log := by
  induction ops generalizing t with
  | nil => exact h
  | cons op ops ih => exact ih ((op.step t).delivered h)

/-- In a session whose documents are in order, a document is sent once. -/
theorem Sound.sentOnce {t : Talk Line} (h : Sound t) (hdelivered : t.session.Delivered t.peer.log)
    {uri : Text} {d : TextDocument} (hd : Fields.get? t.session.documents uri = some d) :
    SentOnce t.peer.log d := by
  obtain ⟨before, after, hlog⟩ := List.append_of_mem (hdelivered uri d hd)
  refine ⟨before, after, hlog, ?_⟩
  have honce := h.course.conformant.openedOnce d.uri
  rw [hlog, List.pairwise_append, List.pairwise_cons] at honce
  obtain ⟨-, ⟨hafter, -⟩, hbefore⟩ := honce
  have hopens : d.opening.Opens d.uri := TextDocument.opens_opening.2 rfl
  rintro ⟨e, he, hother⟩
  obtain he | he := List.mem_append.1 he
  · exact hbefore e he _ (List.mem_cons_self ..) ⟨hother, hopens⟩
  · exact hafter e he ⟨hopens, hother⟩

/-! ## Opening one file -/

namespace Line

/-- The line takes every notification from now on. -/
def Accepts (p : Line) : Prop :=
  ∀ n, p.clock ≤ n → ∀ call, p.oracle.notification n call = none

/-- The line after a notification was taken. -/
def told (call : Call) (p : Line) : Line :=
  { p with clock := p.clock + 1, log := p.log ++ [.told call] }

theorem notify_of_accepts {p : Line} (h : p.Accepts) (call : Call) :
    Peer.notify call p = (.ok (), p.told call) := by
  change p.notify call = _
  rw [notify, h p.clock (Nat.le_refl _) call]
  rfl

theorem Accepts.told {p : Line} (h : p.Accepts) (call : Call) : (p.told call).Accepts :=
  fun n hn => h n (Nat.le_of_succ_le hn)

end Line

/-- A file that is to be opened, with the disk as it is then. -/
structure Opening where
  disk : Disk
  path : Path
  languageId : Text

namespace Opening

/-- Opens the file. -/
def run (o : Opening) (t : Talk Line) : Except Fault TextDocument × Talk Line :=
  exec (Session.openDocument o.disk o.path o.languageId) t

/-- Opens the files one after the other, whatever becomes of each. -/
def runAll : List Opening → Talk Line → List (Except Fault TextDocument) × Talk Line
  | [], t => ([], t)
  | o :: os, t => ((o.run t).1 :: (runAll os (o.run t).2).1, (runAll os (o.run t).2).2)

/-- The resolved path of the file. -/
def place (o : Opening) : Except ResolveError Path :=
  o.disk.resolve o.path

/-- There is a text in the file. -/
structure Readable (o : Opening) : Prop where
  placed : o.disk.Placed
  text : ∃ text, o.disk.readText o.path = .ok text

/-- The document that the file makes when it is opened with this text. -/
def document (o : Opening) (q : Path) (text : String) : TextDocument :=
  Session.documentAt q.uri o.languageId text

variable {o : Opening} {t : Talk Line} {q : Path} {text : String}

theorem exec_readDocument (htext : o.disk.readText o.path = .ok text) :
    exec (Session.readDocument o.disk o.path : SessionM Line String) t = (.ok text, t) := by
  rw [Session.readDocument, htext]
  rfl

/-- What comes of a file that can be read: if its path has no resolved form, a fault that changes
nothing; if it is open already, it becomes the one that was opened last and nothing is sent; and
otherwise it is sent. -/
theorem run_eq (h : t.session.phase ∈ Phase.ready) (haccepts : t.peer.Accepts)
    (htext : o.disk.readText o.path = .ok text) :
    o.run t = match o.place with
      | .error e => (.error (.stray (.ofResolve e)), t)
      | .ok q => match Fields.get? t.session.documents (q.uri : Text) with
        | some d => (.ok d, ⟨t.session.withLast d, t.peer⟩)
        | none => (.ok (o.document q text), ⟨t.session.withOpened (o.document q text),
            t.peer.told (Call.didOpen q.uri o.languageId Session.documentVersion text)⟩) := by
  unfold run Session.openDocument place
  rw [exec_bind, Session.exec_expect, if_pos h]
  dsimp only
  rw [exec_bind, exec_readDocument htext]
  dsimp only
  rw [exec_bind, Session.exec_resolve]
  cases o.disk.resolve o.path with
  | error e => rfl
  | ok q =>
    simp only [mapError_ok, exec_bind, Session.exec_current]
    cases Fields.get? t.session.documents (q.uri : Text) with
    | some d =>
      simp only [exec_bind, Session.exec_note, Session.exec_update, exec_pure, Line.noted_eq]
      rfl
    | none =>
      simp only [exec_bind, Session.exec_closing, Session.exec_tell,
        Line.notify_of_accepts haccepts, Session.exec_note, Session.exec_update, exec_pure,
        Line.noted_eq, Session.withOpened, document, Session.documentAt]

/-- What one call makes of a session: its result is open afterwards, and what was open stays so. -/
inductive Outcome (s : Session) (o : Opening) : Except Fault TextDocument → Prop
  /-- The document of the file is open. -/
  | opened {q : Path} {d : TextDocument} (hplace : o.place = .ok q)
      (hd : Fields.get? s.documents (q.uri : Text) = some d) : Outcome s o (.ok d)
  /-- The path has no resolved form. -/
  | unresolved {e : ResolveError} (hplace : o.place = .error e) :
      Outcome s o (.error (.stray (.ofResolve e)))

end Opening

/-- What was open in a session is open in another one. -/
def Session.KeptIn (s s' : Session) : Prop :=
  ∀ uri d, Fields.get? s.documents uri = some d → Fields.get? s'.documents uri = some d

theorem Opening.Outcome.kept {s s' : Session} {o : Opening} {r : Except Fault TextDocument}
    (h : o.Outcome s r) (hkept : s.KeptIn s') : o.Outcome s' r := by
  cases h with
  | opened hplace hd => exact .opened hplace (hkept _ _ hd)
  | unresolved hplace => exact .unresolved hplace

/-- A session that is ready and whose documents are in order, on a line that takes what is sent. -/
structure Receptive (t : Talk Line) : Prop extends Sound t where
  phase : t.session.phase ∈ Phase.ready
  delivered : t.session.Delivered t.peer.log
  accepts : t.peer.Accepts

namespace Receptive

open Opening

variable {o : Opening} {t : Talk Line}

/-- Opening a file keeps the session in order, and what was open. -/
theorem run (h : Receptive t) (ho : o.Readable) :
    Receptive (o.run t).2 ∧ t.session.KeptIn (o.run t).2.session ∧
      o.Outcome (o.run t).2.session (o.run t).1 := by
  obtain ⟨text, htext⟩ := ho.text
  have hstep := (Operation.openDocument o.disk o.path o.languageId).step t
  have hsound : Sound (o.run t).2 := hstep.sound h.toSound
  have hdelivered : (o.run t).2.session.Delivered (o.run t).2.peer.log :=
    hstep.delivered h.delivered
  rw [run_eq h.phase h.accepts htext] at hsound hdelivered ⊢
  cases hplace : o.place with
  | error e =>
    rw [hplace] at hsound hdelivered
    exact ⟨h, fun _ _ hd => hd, .unresolved hplace⟩
  | ok q =>
    rw [hplace] at hsound hdelivered
    dsimp only at hsound hdelivered ⊢
    cases hd : Fields.get? t.session.documents (q.uri : Text) with
    | some d =>
      rw [hd] at hsound hdelivered
      exact ⟨⟨hsound, h.phase, hdelivered, h.accepts⟩, fun _ _ hd => hd, .opened hplace hd⟩
    | none =>
      rw [hd] at hsound hdelivered
      refine ⟨⟨hsound, by simp [Session.withOpened, Phase.ready], hdelivered, h.accepts.told _⟩,
        fun uri d hold => ?_, .opened hplace ?_⟩
      · have hne : (q.uri : Text) ≠ uri := by
          rintro rfl
          simp [hd] at hold
        simpa [Session.withOpened, Fields.get?_put, document, Session.documentAt, hne] using hold
      · simp [Session.withOpened, Fields.get?_put, document, Session.documentAt]

/-- The same for several files: what comes of each stays open. -/
theorem runAll {os : List Opening} (h : Receptive t) (hos : ∀ o ∈ os, o.Readable) :
    Receptive (runAll os t).2 ∧ t.session.KeptIn (runAll os t).2.session ∧
      List.Forall₂ (Opening.Outcome (runAll os t).2.session) os (runAll os t).1 := by
  induction os generalizing t with
  | nil => exact ⟨h, fun _ _ hd => hd, .nil⟩
  | cons o os ih =>
    obtain ⟨ho, hos⟩ := List.forall_mem_cons.1 hos
    obtain ⟨hafter, hkept, houtcome⟩ := h.run ho
    obtain ⟨hend, hkept', houtcomes⟩ := ih hafter hos
    exact ⟨hend, fun uri d hd => hkept' uri d (hkept uri d hd),
      .cons (houtcome.kept hkept') houtcomes⟩

/-- A session that has come to be ready is receptive, if its line takes what is sent. -/
theorem of_performAll {timeout : Timeout} {oracle : Oracle} {ops : List Operation}
    (hphase : (Operation.performAll ops (Talk.start timeout oracle)).session.phase ∈ Phase.ready)
    (haccepts : (Operation.performAll ops (Talk.start timeout oracle)).peer.Accepts) :
    Receptive (Operation.performAll ops (Talk.start timeout oracle)) where
  toSound := (Sound.start timeout oracle).performAll ops
  phase := hphase
  delivered := delivered_performAll (by rintro uri d ⟨⟩) ops
  accepts := haccepts

end Receptive

namespace Opening

variable {s : Session} {o o₁ o₂ : Opening} {q q₁ q₂ : Path} {d d₁ d₂ : TextDocument}

/-- A path that has a resolved form was opened, and its document is the one that is open. -/
theorem Outcome.exists_document {r : Except Fault TextDocument} (h : o.Outcome s r)
    (hplace : o.place = .ok q) :
    ∃ d, r = .ok d ∧ Fields.get? s.documents (q.uri : Text) = some d := by
  cases h with
  | opened hplace' hd =>
    obtain rfl := Except.ok.inj (hplace.symm.trans hplace')
    exact ⟨_, rfl, hd⟩
  | unresolved hplace' => cases hplace.symm.trans hplace'

theorem Outcome.eq_of_unresolved {r : Except Fault TextDocument} (h : o.Outcome s r)
    {e : ResolveError} (hplace : o.place = .error e) : r = .error (.stray (.ofResolve e)) := by
  cases h with
  | opened hplace' hd => cases hplace.symm.trans hplace'
  | unresolved hplace' => rw [Except.error.inj (hplace.symm.trans hplace')]

/-- Without a document of its own, the question for symbols is about the one that was opened
last. -/
theorem exec_documentSymbols_none {t : Talk Line} (h : t.session.document = some d) :
    exec (Session.documentSymbols none) t = exec (Session.documentSymbols (some d)) t := by
  have htarget : ∀ document : Option TextDocument, document.or t.session.document = some d →
      exec (Session.targetOf document : SessionM Line TextDocument) t = (.ok d, t) := by
    intro document hd
    rw [Session.targetOf, exec_bind, Session.exec_current]
    dsimp only
    rw [hd]
    rfl
  unfold Session.documentSymbols
  rw [exec_bind, exec_bind, Session.exec_expect]
  by_cases hphase : t.session.phase ∈ [Phase.documentOpen]
  · rw [if_pos hphase]
    dsimp only
    rw [exec_bind, exec_bind, htarget none h, htarget (some d) rfl]
  · rw [if_neg hphase]

/-- Resolved forms with different bytes have different addresses. -/
theorem address_eq_iff : (q₁.uri : Text) = q₂.uri ↔ q₁.bytes = q₂.bytes := by
  rw [← Path.uri_eq_iff]
  refine ⟨fun h => ?_, congrArg Text.ofString⟩
  have hstring := congrArg Text.toString? h
  rwa [Text.toString?_ofString, Text.toString?_ofString, Option.some.injEq] at hstring

end Opening

namespace Receptive

open Opening

variable {t : Talk Line} {o o₁ o₂ : Opening} {q q₁ q₂ : Path} {d d₁ d₂ : TextDocument}

/-- A file that is open already is not sent. It becomes the one that was opened last. -/
theorem run_again (h : Receptive t) (ho : o.Readable) (hplace : o.place = .ok q)
    (hd : Fields.get? t.session.documents (q.uri : Text) = some d) :
    o.run t = (.ok d, ⟨t.session.withLast d, t.peer⟩) := by
  obtain ⟨text, htext⟩ := ho.text
  rw [run_eq h.phase h.accepts htext, hplace]
  dsimp only
  rw [hd]

/-- A file whose address was not sent is sent with its text. -/
theorem run_new (h : Receptive t) (ho : o.Readable) (hplace : o.place = .ok q)
    (hnew : ¬ Opened t.peer.log (q.uri : Text)) :
    ∃ text, o.disk.readText o.path = .ok text ∧
      o.run t = (.ok (o.document q text), ⟨t.session.withOpened (o.document q text),
        t.peer.told (Call.didOpen q.uri o.languageId Session.documentVersion text)⟩) := by
  obtain ⟨text, htext⟩ := ho.text
  have hnone : Fields.get? t.session.documents (q.uri : Text) = none := by
    rwa [← h.opened, Fields.has, Bool.not_eq_true, Option.isSome_eq_false_iff,
      Option.isNone_iff_eq_none] at hnew
  refine ⟨text, htext, ?_⟩
  rw [run_eq h.phase h.accepts htext, hplace]
  dsimp only
  rw [hnone]

/-- Open documents are the same, or have the same address, or were sent with the same message, if
and only if the resolved forms of their files have the same bytes. -/
theorem same_iff (h : Receptive t) (hd₁ : Fields.get? t.session.documents (q₁.uri : Text) = some d₁)
    (hd₂ : Fields.get? t.session.documents (q₂.uri : Text) = some d₂) :
    (d₁ = d₂ ↔ q₁.bytes = q₂.bytes) ∧ (d₁.uri = d₂.uri ↔ q₁.bytes = q₂.bytes) ∧
      (d₁.opening = d₂.opening ↔ q₁.bytes = q₂.bytes) := by
  have huri : d₁.uri = d₂.uri ↔ q₁.bytes = q₂.bytes := by
    rw [(h.entries _ d₁ hd₁).1, (h.entries _ d₂ hd₂).1]
    exact address_eq_iff
  have hsame : d₁ = d₂ ↔ q₁.bytes = q₂.bytes := by
    refine ⟨fun hd => huri.1 (hd ▸ rfl), fun hbytes => ?_⟩
    rw [address_eq_iff.2 hbytes, hd₂] at hd₁
    exact (Option.some.inj hd₁).symm
  -- the message holds the address, so that it tells the bytes too
  refine ⟨hsame, huri, fun hd => huri.1 ?_, fun hq => congrArg TextDocument.opening (hsame.2 hq)⟩
  exact (TextDocument.opens_opening.1 (hd ▸ TextDocument.opens_opening.2 rfl)).symm

end Receptive

open Opening in
/-- **A file always has the same document, and another file another one.** In a session that has
come to be ready, on a line that takes what is sent, any files that can be read are opened one after
the other. Where a path has a resolved form, the call has a document, which was sent once, under the
address of that form; the address is the form's bytes, percent-encoded, and tells them, and the
bytes of a path without surrogates are UTF-8. Two calls have the same document, or the same address,
or were sent with the same message, if and only if their resolved forms have the same bytes; forms
that are written as directories list them, such as those without surrogates, have the same bytes
only if they are the same. Whatever becomes of a file, opening it again sends nothing and gives the
document that was sent first, which is then the one that symbols are asked for; a file that was not
opened is sent with its text. -/
theorem documents_identified {timeout : Timeout} {oracle : Oracle} {ops : List Operation}
    (hready : (Operation.performAll ops (Talk.start timeout oracle)).session.phase ∈ Phase.ready)
    (haccepts : (Operation.performAll ops (Talk.start timeout oracle)).peer.Accepts)
    {os : List Opening} (hreadable : ∀ o ∈ os, o.Readable) :
    let r := runAll os (Operation.performAll ops (Talk.start timeout oracle))
    let calls := os.zip r.1
    r.1.length = os.length ∧
    (∀ c ∈ calls, ∀ q, c.1.place = .ok q →
      (∃ d, c.2 = .ok d ∧ d.uri = (q.uri : Text) ∧ SentOnce r.2.peer.log d) ∧
      q.isAbsolute = true ∧ q.text.hasFileBytes = true ∧
      q.uri = "file://" ++ String.ofList (q.text.fileBytes.flatMap Path.percent) ∧
      Path.ofUri? q.uri = some q.bytes ∧
      ∀ cs, q.text = cs.map .char → q.bytes = Text.Utf8.encode cs ∧ q.Listed) ∧
    (∀ c ∈ calls, ∀ e, c.1.place = .error e → c.2 = .error (.stray (.ofResolve e))) ∧
    (∀ c₁ ∈ calls, ∀ c₂ ∈ calls, ∀ q₁ q₂ d₁ d₂, c₁.1.place = .ok q₁ → c₂.1.place = .ok q₂ →
      c₁.2 = .ok d₁ → c₂.2 = .ok d₂ →
      (d₁ = d₂ ↔ q₁.bytes = q₂.bytes) ∧ (d₁.uri = d₂.uri ↔ q₁.bytes = q₂.bytes) ∧
      (d₁.opening = d₂.opening ↔ q₁.bytes = q₂.bytes) ∧
      (q₁.Listed → q₂.Listed → (q₁.bytes = q₂.bytes ↔ q₁ = q₂))) ∧
    ∀ o : Opening, o.Readable → ∀ q, o.place = .ok q →
      (∀ c ∈ calls, ∀ q' d, c.1.place = .ok q' → q'.bytes = q.bytes → c.2 = .ok d →
        let again : Talk Line := ⟨r.2.session.withLast d, r.2.peer⟩
        o.run r.2 = (.ok d, again) ∧
          exec (Session.documentSymbols none) again =
            exec (Session.documentSymbols (some d)) again) ∧
      (¬ Opened r.2.peer.log (q.uri : Text) →
        ∃ text, o.disk.readText o.path = .ok text ∧
          o.run r.2 = (.ok (o.document q text), ⟨r.2.session.withOpened (o.document q text),
            r.2.peer.told (Call.didOpen q.uri o.languageId Session.documentVersion text)⟩)) := by
  obtain ⟨hend, -, houtcomes⟩ := (Receptive.of_performAll hready haccepts).runAll hreadable
  intro r calls
  have hcalls : ∀ c ∈ calls, c.1.Readable ∧ c.1.Outcome r.2.session c.2 := fun c hc =>
    ⟨hreadable _ (List.of_mem_zip hc).1, List.forall₂_zip houtcomes hc⟩
  have hopen : ∀ c ∈ calls, ∀ q d, c.1.place = .ok q → c.2 = .ok d →
      Fields.get? r.2.session.documents (q.uri : Text) = some d := by
    intro c hc q d hplace hd
    obtain ⟨d', hd', hget⟩ := (hcalls c hc).2.exists_document hplace
    rwa [Except.ok.inj (hd.symm.trans hd')]
  refine ⟨houtcomes.length_eq.symm, fun c hc q hplace => ⟨?_, Disk.isAbsolute_resolve hplace,
      Disk.hasFileBytes_resolve hplace, rfl, Path.ofUri?_uri q, fun cs hcs => ?_⟩,
    fun c hc e hplace => (hcalls c hc).2.eq_of_unresolved hplace,
    fun c₁ hc₁ c₂ hc₂ q₁ q₂ d₁ d₂ hplace₁ hplace₂ hd₁ hd₂ => ?_,
    fun o ho q hplace => ⟨fun c hc q' d hplace' hbytes hd => ⟨?_, ?_⟩, hend.run_new ho hplace⟩⟩
  · obtain ⟨d, hd, hget⟩ := (hcalls c hc).2.exists_document hplace
    exact ⟨d, hd, (hend.entries _ d hget).1, hend.sentOnce hend.delivered hget⟩
  · exact ⟨by rw [Path.bytes, hcs, Text.fileBytes_map_char], Path.listed_of_chars hcs⟩
  · obtain ⟨hsame, huri, hopening⟩ := hend.same_iff (hopen c₁ hc₁ q₁ d₁ hplace₁ hd₁)
      (hopen c₂ hc₂ q₂ d₂ hplace₂ hd₂)
    exact ⟨hsame, huri, hopening, Path.bytes_inj
      (Disk.clean_resolve (hcalls c₁ hc₁).1.placed hplace₁)
      (Disk.clean_resolve (hcalls c₂ hc₂).1.placed hplace₂)⟩
  · refine hend.run_again ho hplace ?_
    rw [← address_eq_iff.2 hbytes]
    exact hopen c hc q' d hplace' hd
  · exact exec_documentSymbols_none rfl

/-! ## Samples -/

/-- A disk with a file and a link to it, and with another file whose name is the address of the
first one's. -/
def aliasDisk (text : String) : Disk :=
  { tree := .dir [("A.java", .file (Text.Utf8.encode text.toList)), ("B.java", .link "A.java"),
      ("%41.java", .file [])],
    workingDir := [] }

theorem aliasDisk_placed (text : String) : (aliasDisk text).Placed := by
  rintro s ⟨⟩

/-- The file. -/
def fileOpening : Opening :=
  ⟨aliasDisk "class A \x7b\x7d", Path.parse "A.java", "java"⟩

/-- The file with the misleading name. -/
def decoyOpening : Opening :=
  ⟨aliasDisk "class A \x7b\x7d", Path.parse "%41.java", "java"⟩

/-- The first file by the link to it, with another text by now. -/
def linkOpening : Opening :=
  ⟨aliasDisk "class B \x7b\x7d", Path.parse "B.java", "java"⟩

theorem sampleOpenings_place :
    fileOpening.place = .ok ⟨.top, ["A.java"]⟩ ∧ decoyOpening.place = .ok ⟨.top, ["%41.java"]⟩ ∧
      linkOpening.place = .ok ⟨.top, ["A.java"]⟩ := by
  refine ⟨rfl, ?_, rfl⟩
  decide +kernel

theorem sampleOpenings_readable :
    ∀ o ∈ [fileOpening, decoyOpening, linkOpening], o.Readable := by
  simp only [List.forall_mem_cons]
  refine ⟨⟨aliasDisk_placed _, "class A \x7b\x7d", ?_⟩, ⟨aliasDisk_placed _, "", ?_⟩,
    ⟨aliasDisk_placed _, "class B \x7b\x7d", ?_⟩, by simp⟩
  all_goals rfl

/-- A session that has had its handshake, on a line that takes what is sent. -/
def greetedTalk : Talk Line :=
  Operation.performAll [.handshake bareDisk 1 (Path.parse "/")]
    (Talk.start briefSession.timeout (searchOracle (.result .null)))

theorem greetedTalk_ready : greetedTalk.session.phase ∈ Phase.ready := by
  decide +kernel

theorem greetedTalk_accepts : greetedTalk.peer.Accepts :=
  fun _ _ _ => rfl

/-- The file is told from the other one and recognised under its other name. -/
theorem sample_identified :
    greetedTalk.session.phase ∈ Phase.ready ∧ greetedTalk.peer.Accepts ∧
      (∀ o ∈ [fileOpening, decoyOpening, linkOpening], o.Readable) ∧
      ∃ d d' t', Opening.runAll [fileOpening, decoyOpening, linkOpening] greetedTalk =
          ([.ok d, .ok d', .ok d], t') ∧ d ≠ d' ∧
        d.uri = Text.ofString "file:///A.java" ∧ d'.uri = Text.ofString "file:///%2541.java" ∧
        SentOnce t'.peer.log d ∧ SentOnce t'.peer.log d' := by
  have hidentified :=
    documents_identified greetedTalk_ready greetedTalk_accepts sampleOpenings_readable
  refine ⟨greetedTalk_ready, greetedTalk_accepts, sampleOpenings_readable, ?_⟩
  rw [← greetedTalk] at hidentified
  -- what the session has done so far is not looked at any more
  generalize greetedTalk = t at hidentified ⊢
  rcases hrun : Opening.runAll [fileOpening, decoyOpening, linkOpening] t with ⟨results, t'⟩
  rw [hrun] at hidentified
  obtain ⟨hlength, hsent, -, hsame, -⟩ := hidentified
  obtain ⟨r₁, r₂, r₃, rfl⟩ := List.length_eq_three.1 hlength
  simp only [List.zip_cons_cons, List.forall_mem_cons] at hsent hsame
  obtain ⟨hfile, hdecoy, hlink, -⟩ := hsent
  obtain ⟨hplace₁, hplace₂, hplace₃⟩ := sampleOpenings_place
  obtain ⟨⟨d₁, rfl, huri₁, honce₁⟩, -⟩ := hfile _ hplace₁
  obtain ⟨⟨d₂, rfl, huri₂, honce₂⟩, -⟩ := hdecoy _ hplace₂
  obtain ⟨⟨d₃, rfl, -⟩, -⟩ := hlink _ hplace₃
  obtain ⟨⟨-, hdiffer, hequal, -⟩, -⟩ := hsame
  obtain rfl := (hequal _ _ _ _ hplace₁ hplace₃ rfl rfl).1.2 rfl
  have hne := (hdiffer _ _ _ _ hplace₁ hplace₂ rfl rfl).1.not.2 (by decide)
  exact ⟨d₁, d₂, t', rfl, hne, huri₁.trans rfl, huri₂.trans rfl, honce₁, honce₂⟩

/-- A disk with a file whose name is not all ASCII. -/
def accentDisk : Disk :=
  { tree := .dir [("é.java", .file [])], workingDir := [] }

/-- The file by its name. -/
def accentOpening : Opening :=
  ⟨accentDisk, Path.parse "é.java", "java"⟩

/-- The file by a name with a surrogate for each byte of its first letter. -/
def escapedOpening : Opening :=
  ⟨accentDisk, Path.parse (.ofByte 0xC3 :: .ofByte 0xA9 :: Text.ofString ".java"), "java"⟩

theorem accentOpenings_place :
    accentOpening.place = .ok ⟨.top, ["é.java"]⟩ ∧
      escapedOpening.place =
        .ok ⟨.top, [.ofByte 0xC3 :: .ofByte 0xA9 :: Text.ofString ".java"]⟩ := by
  decide +kernel

theorem accentOpenings_readable : ∀ o ∈ [accentOpening, escapedOpening], o.Readable := by
  have hplaced : accentDisk.Placed := by
    rintro s ⟨⟩
  simp only [List.forall_mem_cons]
  refine ⟨⟨hplaced, "", ?_⟩, ⟨hplaced, "", ?_⟩, by simp⟩
  all_goals decide +kernel

/-- Two paths that resolve differently, and their one document, which is sent once. -/
theorem escaped_name_identified :
    greetedTalk.session.phase ∈ Phase.ready ∧ greetedTalk.peer.Accepts ∧
      (∀ o ∈ [accentOpening, escapedOpening], o.Readable) ∧
      accentOpening.place ≠ escapedOpening.place ∧
      ∃ d t', Opening.runAll [accentOpening, escapedOpening] greetedTalk = ([.ok d, .ok d], t') ∧
        d.uri = Text.ofString "file:///%C3%A9.java" ∧ SentOnce t'.peer.log d := by
  have hdiffer : accentOpening.place ≠ escapedOpening.place := by
    rw [accentOpenings_place.1, accentOpenings_place.2]
    decide
  refine ⟨greetedTalk_ready, greetedTalk_accepts, accentOpenings_readable, hdiffer, ?_⟩
  obtain ⟨hend, -, houtcomes⟩ :=
    (Receptive.of_performAll greetedTalk_ready greetedTalk_accepts).runAll accentOpenings_readable
  rw [← greetedTalk] at hend houtcomes
  generalize greetedTalk = t at hend houtcomes ⊢
  rcases hrun : Opening.runAll [accentOpening, escapedOpening] t with ⟨results, t'⟩
  rw [hrun] at hend houtcomes
  obtain ⟨r₁, rs, houtcome₁, hrest, rfl⟩ := List.forall₂_cons_left_iff.1 houtcomes
  obtain ⟨r₂, rs, houtcome₂, hrest, rfl⟩ := List.forall₂_cons_left_iff.1 hrest
  obtain rfl := List.forall₂_nil_left_iff.1 hrest
  obtain ⟨d₁, rfl, hd₁⟩ := houtcome₁.exists_document accentOpenings_place.1
  obtain ⟨d₂, rfl, hd₂⟩ := houtcome₂.exists_document accentOpenings_place.2
  obtain rfl := (hend.same_iff hd₁ hd₂).1.2 rfl
  exact ⟨d₁, t', rfl, (hend.entries _ d₁ hd₁).1.trans rfl, hend.sentOnce hend.delivered hd₁⟩

end SymbolAtlas
