import SymbolAtlas.Proofs.Run.Safety
import SymbolAtlas.Proofs.Run.Success

/-!
# The methods of a repository, without a server

What a run finds out about the methods of a repository depends only on the files and on what the
server has to say about documents, and what it sends follows from both. The run is the pipeline
below, which takes the answers from a table and talks to nobody.

* `Replies` — what a server has to say, with `LiveServer.AnswersBy`;
* `Pipeline.visits` — the documents that the files stand for;
* `Pipeline.run` — the messages for the files, and the methods that they lead to;
* `Run.chunks_pipeline` — a run that succeeds is the pipeline.
-/

namespace SymbolAtlas

open Lsp

/-- What a server has to say about documents. -/
structure Replies where
  symbols : Text → Json
  references : Text → Position → Json

/-- The answers that the server has given are these. -/
structure LiveServer.AnswersBy (s : LiveServer) (r : Replies) : Prop where
  symbols : ∀ uri v, s.Answered (Call.documentSymbol uri) v → v = r.symbols uri
  references : ∀ uri p v, s.Answered (Call.references uri p false) v → v = r.references uri p

theorem LiveServer.AnswersBy.earlier {s s' : LiveServer} {r : Replies} (h : s'.AnswersBy r)
    (hlater : Connection.Later s.connection s'.connection) : s.AnswersBy r where
  symbols uri v hv := h.symbols uri v (hv.later hlater)
  references uri p v hv := h.references uri p v (hv.later hlater)

namespace Pipeline

/-! ## The pipeline -/

/-- The document that a file stands for, and whether it has to be opened for it. -/
structure Visit where
  document : TextDocument
  isNew : Bool

/-- Two files may have one address. The document of the first one stands for both. -/
def visit (before : List TextDocument) (d : TextDocument) : Visit :=
  match before.find? fun old => old.uri = d.uri with
  | some old => ⟨old, false⟩
  | none => ⟨d, true⟩

/-- The documents that files stand for, in order, after those of the files before. -/
def visits : List TextDocument → List TextDocument → List Visit
  | _, [] => []
  | before, d :: ds => visit before d :: visits (before ++ [d]) ds

/-- The message that opens the document, if it has to be opened. -/
def Visit.opening (v : Visit) : List Outgoing :=
  if v.isNew then [Session.openingOf v.document] else []

/-- The messages for a file. -/
def Visit.messages (v : Visit) : List Outgoing :=
  v.opening ++ [.request (Call.documentSymbol v.document.uri)]

/-- The methods in a document. -/
def methodsIn (r : Replies) (d : TextDocument) : Option (List MethodChunk) :=
  (Answer.documentSymbols d.uri (r.symbols d.uri)).toOption.map fun ns =>
    MethodChunk.extract ns d.text

/-- The place that references to a method are asked for, if it has a selection range. -/
def target? (c : MethodChunk) : Option (Text × Position) :=
  c.location.bind fun place => place.selection.map fun selection => (place.uri, selection.start)

theorem target?_isSome (c : MethodChunk) : (target? c).isSome = c.selection?.isSome := by
  unfold target? MethodChunk.selection?
  cases c.location with
  | none => rfl
  | some place => cases h : place.selection <;> simp [h]

/-- The messages for the references to methods. -/
def lookups (cs : List MethodChunk) : List Outgoing :=
  (cs.filterMap target?).map fun (uri, p) => .request (Call.references uri p false)

/-- The references to a method. -/
def referencesIn (r : Replies) (c : MethodChunk) : Option (List Location) :=
  (target? c).bind fun (uri, p) =>
    (Answer.locations (Subject.references uri p.line p.character).request
      (r.references uri p)).toOption

/-- The messages for the files, and their methods with callers and callees. -/
def run (disk : Disk) (languageId : Text) (r : Replies) (files : List Path) :
    Option (List Outgoing × List MethodChunk) := do
  let documents ← files.mapM (Session.documentOf disk languageId)
  let found ← (visits [] documents).mapM fun v => methodsIn r v.document
  let linked ← CallGraph.linkWith (referencesIn r) (fun _ => some ()) found.flatten
  return ((visits [] documents).flatMap Visit.messages ++ lookups found.flatten, linked)

/-- What is sent before the files. -/
def hello (processId : Int) (root : Path) : List Outgoing :=
  [.request (Call.handshake (Session.clientInfo processId root)), .notification Call.initialized]

/-- What is sent at the end, as far as it comes. -/
def goodbye : List Outgoing :=
  [.request Call.shutdown, .notification Call.exit]

/-! ## Documents -/

/-- The session's documents are those of the files so far. -/
def Keeps (before : List TextDocument) (s : Session) : Prop :=
  ∀ uri, Fields.get? s.documents uri = before.find? fun d => d.uri = uri

theorem Keeps.congr {before : List TextDocument} {s s' : Session} (h : Keeps before s)
    (hdocuments : s'.documents = s.documents) : Keeps before s' :=
  fun uri => hdocuments ▸ h uri

theorem find?_snoc (before : List TextDocument) (new : TextDocument) (uri : Text) :
    (before ++ [new]).find? (fun d => d.uri = uri) =
      (before.find? fun d => d.uri = uri).or (if new.uri = uri then some new else none) := by
  rw [List.find?_append, List.find?_cons]
  split <;> simp_all

end Pipeline

namespace Run

open Session LiveServer Pipeline

variable {env : Environment} {settings : ScanSettings} {r : Replies} {t t' : Talk LiveServer}
  {before : List TextDocument}

theorem openDocument_visits (hkeeps : Keeps before t.session) {path : Path} {languageId : Text}
    {d : TextDocument} (h : exec (openDocument env.disk path languageId) t = (.ok d, t')) :
    ∃ new, documentOf env.disk languageId path = some new ∧ d = (visit before new).document ∧
      Keeps (before ++ [new]) t'.session ∧ Sends t.peer (visit before new).opening t'.peer := by
  obtain ⟨new, hnew, ⟨hold, hsame, hsends⟩ | ⟨hnone, rfl, hput, hsends⟩⟩ := openDocument_sends h
  · have hvisit : visit before new = ⟨d, false⟩ := by rw [visit, ← hkeeps, hold]
    refine ⟨new, hnew, by rw [hvisit], fun uri => ?_, by rw [hvisit]; exact hsends⟩
    rw [hsame, hkeeps, find?_snoc]
    split
    · next heq =>
      subst heq
      rw [← hkeeps, hold, Option.some_or]
    · rw [Option.or_none]
  · have hvisit : visit before d = ⟨d, true⟩ := by rw [visit, ← hkeeps, hnone]
    refine ⟨d, hnew, by rw [hvisit], fun uri => ?_, by rw [hvisit]; exact hsends⟩
    rw [hput, Fields.get?_put, find?_snoc]
    split
    · next heq =>
      subst heq
      rw [← hkeeps, hnone, Option.none_or]
    · rw [hkeeps, Option.or_none]

/-- A file is visited: what is sent for it, and the methods in it. -/
theorem fileChunks_visits (hkeeps : Keeps before t.session) (ht : t.peer.connection.Numbered)
    {path : Path} {cs : List MethodChunk}
    (h : exec (fileChunks env settings path) t = (.ok cs, t')) :
    ∃ d, documentOf env.disk settings.languageId path = some d ∧
      Keeps (before ++ [d]) t'.session ∧ Sends t.peer (visit before d).messages t'.peer ∧
      (t'.peer.AnswersBy r → methodsIn r (visit before d).document = some cs) := by
  unfold fileChunks at h
  obtain ⟨document, t₁, hopen, hrest⟩ := exec_ok_of_bind h
  obtain ⟨ns, t₂, hasked, hnoted⟩ := exec_ok_of_bind (exec_of_during hrest)
  obtain ⟨d, hd, rfl, hkept, hopened⟩ := openDocument_visits hkeeps (exec_of_during hopen)
  obtain ⟨hsession, hsends, v, hanswered, hread⟩ :=
    documentSymbols_sends (hopened.numbered ht) hasked
  obtain ⟨⟨⟩, t₃, hnote, hpure⟩ := exec_ok_of_bind hnoted
  cases hnote
  cases hpure
  have hquiet := quiet_noted (MethodChunk.orphanEntries ns (visit before d).document.text) t₂.peer
  refine ⟨d, hd, hkept.congr (congrArg Session.documents hsession),
    (hopened.trans hsends).quiet hquiet, fun hby => ?_⟩
  obtain rfl := hby.symbols _ _ (hanswered.later hquiet.later)
  rw [methodsIn, hread]
  rfl

/-- The files are visited in order. -/
theorem mapM_fileChunks_visits (hkeeps : Keeps before t.session)
    (ht : t.peer.connection.Numbered) {files : List Path} {found : List (List MethodChunk)}
    (h : exec (files.mapM (fileChunks env settings)) t = (.ok found, t')) :
    ∃ documents, files.mapM (documentOf env.disk settings.languageId) = some documents ∧
      Sends t.peer ((visits before documents).flatMap Visit.messages) t'.peer ∧
      (t'.peer.AnswersBy r →
        (visits before documents).mapM (fun v => methodsIn r v.document) = some found) := by
  induction files generalizing before t found with
  | nil =>
    cases h
    exact ⟨[], rfl, .of_quiet (.refl _), fun _ => rfl⟩
  | cons path files ih =>
    rw [List.mapM_cons] at h
    obtain ⟨cs, t₁, hfile, hrest⟩ := exec_ok_of_bind h
    obtain ⟨css, t₂, hfiles, hpure⟩ := exec_ok_of_bind hrest
    cases hpure
    obtain ⟨d, hd, hkept, hsends, hmethods⟩ := fileChunks_visits (r := r) hkeeps ht hfile
    obtain ⟨ds, hds, hsends', hmethods'⟩ := ih hkept (hsends.numbered ht) hfiles
    refine ⟨d :: ds, ?_, hsends.trans hsends', fun hby => ?_⟩
    · rw [List.mapM_cons, hd, hds]
      rfl
    · rw [visits, List.mapM_cons, hmethods (hby.earlier hsends'.later), hmethods' hby]
      rfl

/-- References are looked up for a method with a selection range, at the start of it. -/
theorem referencesTo_sends (ht : t.peer.connection.Numbered) {c : MethodChunk}
    {ls : List Location} (h : exec (referencesTo c) t = (.ok ls, t')) :
    Sends t.peer (lookups [c]) t'.peer ∧ (t'.peer.AnswersBy r → referencesIn r c = some ls) := by
  unfold referencesTo at h
  split at h
  · next uri range selection hplace =>
    have htarget : target? c = some (uri, selection.start) := by
      rw [target?, hplace]
      rfl
    obtain ⟨-, hsends, v, hanswered, hread⟩ := references_sends ht h
    refine ⟨by simpa [lookups, htarget] using hsends, fun hby => ?_⟩
    obtain rfl := hby.references _ _ _ hanswered
    rw [referencesIn, htarget]
    exact congrArg Except.toOption hread
  · cases h

theorem lookups_append (cs cs' : List MethodChunk) :
    lookups (cs ++ cs') = lookups cs ++ lookups cs' := by
  rw [lookups, List.filterMap_append, List.map_append]
  rfl

/-- The references to one method are looked up, if it has a selection range. -/
theorem collect_one_sends (ht : t.peer.connection.Numbered) {c : MethodChunk}
    {refs : List (List Location)}
    (h : exec (CallGraph.collect referencesTo skipReferences [c]) t = (.ok refs, t')) :
    Sends t.peer (lookups [c]) t'.peer ∧ (t'.peer.AnswersBy r →
      CallGraph.collect (referencesIn r) (fun _ => some ()) [c] = some refs) := by
  cases hselection : c.selection? with
  | some selection =>
    have hsome : c.selection?.isSome = true := by rw [hselection, Option.isSome_some]
    rw [CallGraph.collect_of_selection hsome] at h ⊢
    obtain ⟨ls, t₁, hlookup, hpure⟩ := exec_ok_of_bind h
    cases hpure
    obtain ⟨hsends, hrefs⟩ := referencesTo_sends (r := r) ht hlookup
    exact ⟨hsends, fun hby => by rw [hrefs hby]; rfl⟩
  | none =>
    have htarget : target? c = none := by
      rw [← Option.not_isSome_iff_eq_none, target?_isSome, hselection]
      exact Bool.false_ne_true
    rw [CallGraph.collect_of_no_selection hselection] at h ⊢
    obtain ⟨u, t₁, hskipped, hpure⟩ := exec_ok_of_bind h
    cases hpure
    refine ⟨?_, fun _ => rfl⟩
    rw [lookups, List.filterMap_cons_none htarget]
    exact .of_quiet (note_quiet hskipped)

/-- The references to all methods are looked up in order. -/
theorem collect_sends (ht : t.peer.connection.Numbered) {cs : List MethodChunk}
    {refs : List (List Location)}
    (h : exec (CallGraph.collect referencesTo skipReferences cs) t = (.ok refs, t')) :
    Sends t.peer (lookups cs) t'.peer ∧ (t'.peer.AnswersBy r →
      CallGraph.collect (referencesIn r) (fun _ => some ()) cs = some refs) := by
  induction cs generalizing t refs with
  | nil =>
    cases h
    exact ⟨.of_quiet (.refl _), fun _ => rfl⟩
  | cons c cs ih =>
    rw [← List.singleton_append, CallGraph.collect_append] at h
    obtain ⟨ls, t₁, hfirst, hrest⟩ := exec_ok_of_bind h
    obtain ⟨lss, t₂, hothers, hpure⟩ := exec_ok_of_bind hrest
    cases hpure
    obtain ⟨hsends, hrefs⟩ := collect_one_sends (r := r) ht hfirst
    obtain ⟨hsends', hrefs'⟩ := ih (hsends.numbered ht) hothers
    rw [← List.singleton_append, lookups_append, CallGraph.collect_append]
    refine ⟨hsends.trans hsends', fun hby => ?_⟩
    rw [hrefs (hby.earlier hsends'.later), hrefs' hby]
    rfl

theorem linkChunks_sends (ht : t.peer.connection.Numbered) {cs linked : List MethodChunk}
    (h : exec (linkChunks cs) t = (.ok linked, t')) :
    Sends t.peer (lookups cs) t'.peer ∧ (t'.peer.AnswersBy r →
      CallGraph.linkWith (referencesIn r) (fun _ => some ()) cs = some linked) := by
  unfold linkChunks CallGraph.linkWith at h
  obtain ⟨linked', t₁, hlink, hnote⟩ := exec_ok_of_bind h
  obtain ⟨refs, t₂, hcollect, hlinked⟩ := exec_ok_of_bind hlink
  obtain ⟨u, t₃, hnoted, hpure⟩ := exec_ok_of_bind hnote
  cases hlinked
  cases hpure
  obtain ⟨hsends, hrefs⟩ := collect_sends (r := r) ht hcollect
  have hquiet := note_quiet hnoted
  refine ⟨hsends.quiet hquiet, fun hby => ?_⟩
  rw [CallGraph.linkWith, hrefs (hby.earlier hquiet.later)]
  rfl

/-- The queries of a run send what the pipeline says and find what it finds. -/
theorem chunkQueries_sends (hkeeps : Keeps [] t.session) (ht : t.peer.connection.Numbered)
    {files : List Path} {installation : Installation} {a : Installation × List MethodChunk}
    (h : exec (chunkQueries env settings files installation) t = (.ok a, t')) :
    ∃ messages, Sends t.peer messages t'.peer ∧ (t'.peer.AnswersBy r →
      Pipeline.run env.disk settings.languageId r files = some (messages, a.2)) := by
  unfold chunkQueries at h
  obtain ⟨found, t₁, hfiles, hrest⟩ := exec_ok_of_bind h
  obtain ⟨linked, t₂, hlink, hpure⟩ := exec_ok_of_bind hrest
  cases hpure
  obtain ⟨documents, hdocuments, hvisited, hfound⟩ :=
    mapM_fileChunks_visits (r := r) hkeeps ht hfiles
  obtain ⟨hlooked, hlinked⟩ :=
    linkChunks_sends (r := r) (hvisited.numbered ht) (exec_of_during hlink)
  refine ⟨_, hvisited.trans hlooked, fun hby => ?_⟩
  rw [Pipeline.run, hdocuments, Option.bind_eq_bind, Option.bind_some,
    hfound (hby.earlier hlooked.later), Option.bind_eq_bind, Option.bind_some, hlinked hby]
  rfl

/-- The whole conversation of a run, from the handshake on. -/
theorem conversation_sends {session : Session} {s : LiveServer}
    (hnew : Session.new settings.timeout = .ok session) (hs : s.connection.Numbered)
    {files : List Path} {installation : Installation} {a : Installation × List MethodChunk}
    (h : exec (conversation env settings (chunkQueries env settings files installation))
      ⟨session, s⟩ = (.ok a, t)) :
    ∃ root messages, env.disk.resolve settings.repoPath = .ok root ∧
      Sends s (hello env.processId root ++ messages) t.peer ∧ (t.peer.AnswersBy r →
        Pipeline.run env.disk settings.languageId r files = some (messages, a.2)) := by
  obtain ⟨v, t₁, hgreeted, hqueries⟩ := exec_ok_of_bind h
  obtain ⟨hdocuments, root, hroot, hsends⟩ := handshake_sends hs (exec_of_during hgreeted)
  obtain ⟨htidy, hphase⟩ := new_tidy hnew
  have hkeeps : Keeps [] t₁.session := fun uri => by
    rw [hdocuments, (htidy.empty (by simp [hphase])).1]
    rfl
  obtain ⟨messages, hsends', hrun⟩ := chunkQueries_sends hkeeps (hsends.numbered hs) hqueries
  exact ⟨root, messages, hroot, hsends.trans hsends', hrun⟩

/-- **A run that succeeds is the pipeline.** Its files are those of the repository, its methods are
those that the pipeline finds in them by the server's answers, and it has sent the messages of the
pipeline and nothing else, but for the handshake before and the leave after them. -/
theorem chunks_pipeline (env : Environment) (settings : ScanSettings) (r : Replies)
    {c : ChunkResult} (hresult : (chunks env settings).result = .ok c)
    (hreplies : ∀ live, (chunks env settings).trace.live = some live → live.AnswersBy r) :
    env.disk.sourceFiles env.searchRoom settings.repoPath sourceSuffix = .ok c.files ∧
    ∃ root messages last live,
      env.disk.resolve settings.repoPath = .ok root ∧
      Pipeline.run env.disk settings.languageId r c.files = some (messages, c.chunks) ∧
      last <+: goodbye ∧
      (chunks env settings).trace.live = some live ∧
      live.connection.spoken = Outgoing.wire 1 (hello env.processId root ++ messages ++ last) := by
  unfold chunks at hresult hreplies ⊢
  split at hresult
  · cases hresult
  · next files hfiles =>
    obtain ⟨a, notices, ha, rfl, hlive⟩ := result_conclude_ok hresult
    obtain ⟨live, installation, hlived, hsucceeds⟩ := withSession_succeeds ha
    rw [hfiles] at hreplies ⊢
    dsimp only at hreplies ⊢
    rw [hlive, hlived] at hreplies ⊢
    obtain @⟨session, s, t, t', hnew, hunused, hsaid, hclosed, hquiet⟩ := hsucceeds
    obtain ⟨root, messages, hroot, hsends, hrun⟩ :=
      conversation_sends (r := r) hnew hunused.numbered hsaid
    obtain ⟨last, hlast, hlater, hspoken⟩ :=
      close_sends (hsends.numbered hunused.numbered) hclosed
    have hby := (hreplies live rfl).earlier (hlater.trans hquiet.later)
    refine ⟨rfl, root, messages, last, live, hroot, hrun hby, hlast, rfl, ?_⟩
    rw [hquiet.spoken, hspoken, hsends.spoken, hsends.nextId, hunused.spoken, hunused.nextId,
      List.nil_append, ← Outgoing.wire_append]

/-! ## A sample -/

/-- In the sample the symbols are asked for in the second request, and references in the next ones,
line by line. -/
def isSampleCall (m : Json) : Bool :=
  match m.field? "method", m.field? "id", m.field? "params" with
  | some (.str method), some (.int id), some params =>
    if method = "textDocument/documentSymbol" then id = 2
    else if method = "textDocument/references" then
      match (params.field? "position").bind fun p => p.field? "line" with
      | some (.int line) => id = line + 2
      | _ => false
    else true
  | _, _, _ => true

/-- The value that a request was answered with. -/
def valueOf (s : LiveServer) (id : Nat) : Json :=
  match s.connection.outcome? id with
  | some (.result v) => v
  | _ => .null

/-- What a server has to say that has answered the calls of the sample. -/
def sampleReplies (s : LiveServer) : Replies where
  symbols _ := valueOf s 2
  references _ p := valueOf s (p.line + 2)

theorem requestMessage_fields (id : Nat) (method : String) {v : Json} (hv : v.kind ≠ .null) :
    (Connection.requestMessage id method (some v)).field? "method" = some (.str method) ∧
      (Connection.requestMessage id method (some v)).field? "id" = some (.int id) ∧
      (Connection.requestMessage id method (some v)).field? "params" = some v := by
  have hjsonrpc : Text.ofString "jsonrpc" ∉ [Text.ofString "method", "id", "params"] := by decide
  have hid : Text.ofString "id" ∉ [Text.ofString "method", "params"] := by decide
  have hmethod : Text.ofString "method" ≠ Text.ofString "params" := by decide
  cases v with
  | null => exact absurd rfl hv
  | _ => simp_all [Connection.requestMessage, Connection.paramsField, Json.field?, Fields.get?]

theorem isSampleCall_documentSymbol {id : Nat} {uri : Text}
    (h : isSampleCall (Connection.requestMessage id (Call.documentSymbol uri).method
      (Call.documentSymbol uri).params) = true) : id = 2 := by
  obtain ⟨hmethod, hid, hparams⟩ := requestMessage_fields id "textDocument/documentSymbol"
    (v := .obj [("textDocument", documentId uri)]) (by simp [Json.kind])
  rw [Call.documentSymbol, isSampleCall, hmethod, hid, hparams] at h
  dsimp only at h
  rw [if_pos rfl, decide_eq_true_iff] at h
  exact Int.ofNat.inj h

theorem isSampleCall_references {id : Nat} {uri : Text} {p : Position}
    (h : isSampleCall (Connection.requestMessage id (Call.references uri p false).method
      (Call.references uri p false).params) = true) : id = p.line + 2 := by
  obtain ⟨hmethod, hid, hparams⟩ := requestMessage_fields id "textDocument/references"
    (v := .obj [("context", .obj [("includeDeclaration", .bool false)]),
      ("textDocument", documentId uri), ("position", Encode.position p)]) (by simp [Json.kind])
  have hother : Text.ofString "textDocument/references" ≠ "textDocument/documentSymbol" := by
    decide
  have hcontext : Text.ofString "context" ≠ "position" := by decide
  have hdocument : Text.ofString "textDocument" ≠ "position" := by decide
  rw [Call.references, isSampleCall, hmethod, hid, hparams] at h
  dsimp only at h
  rw [if_neg hother, if_pos rfl] at h
  simp [Json.field?, Fields.get?, hcontext, hdocument, Encode.position] at h
  omega

theorem sample_answersBy {s : LiveServer} (h : s.connection.spoken.all isSampleCall = true) :
    s.AnswersBy (sampleReplies s) := by
  have hcalls := List.all_eq_true.1 h
  refine ⟨fun uri v ⟨id, hspoken, houtcome⟩ => ?_, fun uri p v ⟨id, hspoken, houtcome⟩ => ?_⟩
  · obtain rfl := isSampleCall_documentSymbol (hcalls _ hspoken)
    simp [sampleReplies, valueOf, houtcome]
  · obtain rfl := isSampleCall_references (hcalls _ hspoken)
    simp [sampleReplies, valueOf, houtcome]

set_option maxRecDepth 100000 in
/-- The run of the sample succeeds, and its calls are those of the sample. -/
theorem sample_calls :
    ((chunks sampleEnvironment sampleSettings).result.isOk &&
      (chunks sampleEnvironment sampleSettings).trace.live.any fun s =>
        s.connection.spoken.all isSampleCall) = true := by
  decide +kernel

/-- The run of the sample is the pipeline. -/
theorem chunks_pipeline_sample : ∃ r c,
    (chunks sampleEnvironment sampleSettings).result = .ok c ∧
    (∀ live, (chunks sampleEnvironment sampleSettings).trace.live = some live →
      live.AnswersBy r) ∧
    ∃ root messages last live,
      sampleEnvironment.disk.resolve sampleSettings.repoPath = .ok root ∧
      Pipeline.run sampleEnvironment.disk sampleSettings.languageId r c.files =
        some (messages, c.chunks) ∧
      last <+: goodbye ∧
      (chunks sampleEnvironment sampleSettings).trace.live = some live ∧
      live.connection.spoken =
        Outgoing.wire 1 (hello sampleEnvironment.processId root ++ messages ++ last) := by
  have hcalls := sample_calls
  rw [Bool.and_eq_true, Option.any_eq_true] at hcalls
  obtain ⟨hok, s, hs, hcalls⟩ := hcalls
  have hreplies : ∀ live, (chunks sampleEnvironment sampleSettings).trace.live = some live →
      live.AnswersBy (sampleReplies s) := by
    intro live hlive
    obtain rfl := Option.some.inj (hs.symm.trans hlive)
    exact sample_answersBy hcalls
  cases hresult : (chunks sampleEnvironment sampleSettings).result with
  | error e =>
    rw [hresult] at hok
    cases hok
  | ok c =>
    obtain ⟨-, hpipeline⟩ :=
      chunks_pipeline sampleEnvironment sampleSettings (sampleReplies s) hresult hreplies
    exact ⟨sampleReplies s, c, rfl, hreplies, hpipeline⟩

end Run

end SymbolAtlas
