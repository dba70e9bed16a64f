import SymbolAtlas.Proofs.Run.Safety
import SymbolAtlas.Proofs.Server.Loss
import SymbolAtlas.Proofs.Session.Farewell

/-!
# Runs that are taken down

However a run ends, it has started at most one server, and none unless one is installed. If it can
talk to the server, it takes everything down before it is over: the session is closed, then the
connection, then the child is stopped, and at last the listener is waited for. None of this meets a
fault but for a child that cannot be stopped, so the fault that the run ends in is the one that the
failing stage has met.

* `Run.scanQueries_upholds`, `Run.chunkQueries_upholds`, … — what the queries of a run keep;
* `Run.TakenDown` — what a run leaves of a server, with `Run.withServer_takenDown`;
* `Run.Scoped` — what a run does around its queries, with `Run.withSession_scoped`;
* `Run.runs_taken_down` — whole runs.
-/

namespace SymbolAtlas

/-! ## Setting up -/

theorem Session.new_of_positive {timeout : Json} (h : Invariant.isPositive? timeout = some true) :
    Session.new timeout = .ok { timeout := ⟨timeout, h⟩ } := by
  rw [Session.new, Timeout.require, dif_pos h]
  rfl

/-- A child with both pipes gets an owner. -/
theorem ServerProcess.own_of_piped {child : Child} (hstdin : child.stdin.isSome = true)
    (hstdout : child.stdout.isSome = true) (command : List Text) :
    own child command terminateTimeout =
      .ok ⟨child, command, ⟨terminateTimeout, terminateTimeout_isPositive⟩⟩ := by
  rw [own, Option.isNone_eq_false_iff.2 hstdin, Option.isNone_eq_false_iff.2 hstdout,
    if_neg (by simp), Timeout.require, dif_pos terminateTimeout_isPositive]

theorem ServerProcess.launch_of_own {α : Type} {spawn : Start → Except String (Child × α)}
    {start : Start} {child : Child} {more : α} {p : ServerProcess} (java : Text)
    (hspawn : spawn start = .ok (child, more))
    (hown : own child start.command terminateTimeout = .ok p) :
    ∃ es, launch spawn start java = (.ok (p, more), es) := by
  unfold launch
  rw [hspawn]
  dsimp only
  rw [hown]
  exact ⟨_, rfl⟩

namespace Run

open Session

variable {α : Type}

/-! ## Queries -/

section Queries

variable {I : LiveServer → Prop} {timeout : Timeout}

theorem during_maintains {P : Talk LiveServer → Prop} {step : SessionM LiveServer α}
    (stage : RunStage) (h : Maintains P step) : Maintains P (during stage step) := by
  intro t ht
  rw [exec_during]
  exact h t ht

theorem scanQueries_upholds (hI : Peer.Keeps I) (env : Environment) (settings : ScanSettings)
    (target : Path) (installation : Installation) :
    Maintains (Talk.Upheld I timeout) (scanQueries env settings target installation) := by
  have hopening : Maintains (Talk.Upheld I timeout) (do
      note .info "scan.opening" [("path", .str target.text)]
      openDocument env.disk target settings.languageId) :=
    (note_upholds hI _ _ _).bind fun _ => openDocument_upholds hI _ _ _
  exact (during_maintains _ hopening).bind fun _ =>
    (during_maintains _ (documentSymbols_upholds hI none)).bind fun _ => .pure _

theorem searchQueries_upholds (hI : Peer.Keeps I) (query : String) (installation : Installation) :
    Maintains (Talk.Upheld I timeout) (searchQueries query installation) :=
  (during_maintains _ (workspaceSymbols_upholds hI query)).bind fun _ => .pure _

theorem fileChunks_upholds (hI : Peer.Keeps I) (env : Environment) (settings : ScanSettings)
    (path : Path) : Maintains (Talk.Upheld I timeout) (fileChunks env settings path) := by
  refine (during_maintains _ (openDocument_upholds hI _ _ _)).bind fun document =>
    during_maintains _ ((documentSymbols_upholds hI (some document)).bind fun nodes => ?_)
  have hnoted : Maintains (Talk.Upheld I timeout)
      (noteAll (MethodChunk.orphanEntries nodes document.text)) :=
    fun _ ht => ⟨ht.timeout, hI.noted _ ht.peer⟩
  exact hnoted.bind fun _ => .pure _

theorem referencesTo_upholds (hI : Peer.Keeps I) (c : MethodChunk) :
    Maintains (Talk.Upheld I timeout) (referencesTo c) := by
  unfold referencesTo
  split
  · exact references_upholds hI _ _
  · exact fun _ ht => ht

theorem linkChunks_upholds (hI : Peer.Keeps I) (cs : List MethodChunk) :
    Maintains (Talk.Upheld I timeout) (linkChunks cs) := by
  have hcollected : Maintains (Talk.Upheld I timeout)
      (CallGraph.collect referencesTo skipReferences cs) := by
    refine .mapM fun c _ => ?_
    split
    · exact referencesTo_upholds hI c
    · exact (note_upholds hI _ _ _).bind fun _ => .pure _
  have hlinked : Maintains (Talk.Upheld I timeout)
      (CallGraph.linkWith referencesTo skipReferences cs) := hcollected.bind fun _ => .pure _
  exact hlinked.bind fun _ => (note_upholds hI _ _ _).bind fun _ => .pure _

theorem chunkQueries_upholds (hI : Peer.Keeps I) (env : Environment) (settings : ScanSettings)
    (files : List Path) (installation : Installation) :
    Maintains (Talk.Upheld I timeout) (chunkQueries env settings files installation) := by
  have hfound : Maintains (Talk.Upheld I timeout) (files.mapM (fileChunks env settings)) :=
    .mapM fun path _ => fileChunks_upholds hI env settings path
  exact hfound.bind fun found =>
    (during_maintains _ (linkChunks_upholds hI found.flatten)).bind fun _ => .pure _

/-- The conversation of a run keeps what its queries keep. -/
theorem conversation_upholds (hI : Peer.Keeps I) (env : Environment) (settings : ScanSettings)
    {queries : RunM α} (h : Maintains (Talk.Upheld I timeout) queries) :
    Maintains (Talk.Upheld I timeout) (conversation env settings queries) :=
  (during_maintains _ (handshake_upholds hI _ _ _)).bind fun _ => h

end Queries

/-! ## Servers -/

theorem canAwait_of_canWait {timeout : Json} (h : Timeout.canWait timeout = .ok ())
    (ended : Bool) : canAwait timeout ended = .ok () := by
  unfold Timeout.canWait at h
  unfold canAwait
  cases htime : Timeout.isTime timeout with
  | error e =>
    rw [htime] at h
    cases h
  | ok u =>
    rw [htime] at h
    cases ended with
    | true => rfl
    | false => exact h

variable {β : Type} {env : Environment} {settings : ScanSettings} {last : RunStage}
  {queries : RunM α}

/-- What a run leaves of a server that it can talk to. Whatever came of the conversation, the
session was closed without a fault, then the connection, then the child was stopped, and at last the
listener was waited for, each of them once. Nothing is pending on the connection. If stopping the
child met no fault, then the listener has stopped, and the run ends in the fault of its
conversation, if any. -/
inductive TakenDown (env : Environment) (settings : ScanSettings) (queries : RunM α)
    (p : ServerProcess) (server : Server) (r : Report β) : Prop
  | mk {session : Session} {journal : List Entry} {said : Except Interruption α}
      {t t' : Talk LiveServer} {live : LiveServer}
      (hnew : Session.new settings.timeout = .ok session)
      (hsaid : exec (conversation env settings queries)
        ⟨session, .connect server p.child journal⟩ = (said, t))
      (hclosed : exec Session.close t = (.ok (), t'))
      (hteardown : r.trace.teardown =
        [.sessionClosed, .connectionClosed, .childStopped, .listenerAwaited])
      (hsession : r.trace.session = some t'.session)
      (hphase : t'.session.phase = .closed)
      (hlive : r.trace.live = some live)
      (hfuture : Connection.Future t'.peer.closeConnection.connection live.connection)
      (hshut : live.connection.calls.isClosed = true)
      (hpending : live.connection.calls.pending = [])
      (hcalls : r.trace.calls = (ServerProcess.stop { p with child := t'.peer.child }).calls)
      (hkept : ∀ code, (ServerProcess.stop { p with child := t'.peer.child }).result = .ok code →
        live.connection.listener = .stopped ∧
        ∀ fault, r.result = .error fault ↔ ∃ stage, said = .error ⟨stage, fault⟩)

/-- After the conversation the session is closed without a fault, and then the connection. -/
theorem converse_closed (env : Environment) (settings : ScanSettings) (last : RunStage)
    (session : Session) (hwait : session.timeout.wait = .ok ())
    (hqueries : Maintains (Talk.Upheld LiveServer.Steady session.timeout) queries)
    {s : LiveServer} (hs : s.Steady) (trace : Trace) :
    ∃ said t t', exec (conversation env settings queries) ⟨session, s⟩ = (said, t) ∧
      exec Session.close t = (.ok (), t') ∧ t'.session.phase = .closed ∧ t'.peer.Steady ∧
      (converse env settings last queries session s trace).result = said ∧
      (converse env settings last queries session s trace).trace = trace.closed t' := by
  have hupheld := conversation_upholds LiveServer.steady_kept env settings hqueries ⟨session, s⟩
    ⟨rfl, hs⟩
  rw [converse_eq]
  generalize exec (conversation env settings queries) ⟨session, s⟩ = r at hupheld ⊢
  obtain ⟨said, t⟩ := r
  have hok := close_ok LiveServer.steady_plain LiveServer.steady_kept
    (hupheld.timeout ▸ hwait) hupheld.peer
  have hphase := congrArg Session.phase (close_session t)
  have hsteady := (close_upholds LiveServer.steady_kept t hupheld).peer
  rcases hclosed : exec (Session.close : SessionM LiveServer Unit) t with ⟨result, t'⟩
  rw [hclosed] at hok hphase hsteady
  obtain rfl : result = .ok () := hok
  refine ⟨said, t, t', rfl, hclosed, hphase, hsteady, ?_⟩
  rw [closeSession_of_ok hclosed]
  exact ⟨rfl, rfl⟩

/-- What comes of a run differs in its journal from what was taken down. -/
theorem conclude_trace (finish : α → List Notice → β) (c : Closing α) :
    ∃ journal, (conclude finish c).trace = { c.trace with journal := journal } := by
  unfold conclude
  dsimp only
  split <;> exact ⟨_, rfl⟩

theorem conclude_error_iff {finish : α → List Notice → β} {c : Closing α} {fault : Fault} :
    (conclude finish c).result = .error fault ↔ ∃ stage, c.result = .error ⟨stage, fault⟩ := by
  refine ⟨fun h => ?_, fun ⟨stage, h⟩ => ?_⟩
  · obtain ⟨⟨stage, _⟩, hi, rfl⟩ := result_conclude_error h
    exact ⟨stage, hi⟩
  · rw [conclude, h]

/-- A server that was started is taken down. -/
theorem withServer_takenDown (finish : α → List Notice → β) (last : RunStage)
    (hpositive : Invariant.isPositive? settings.timeout = some true)
    (hwait : Timeout.canWait settings.timeout = .ok ())
    (hqueries : ∀ timeout, Maintains (Talk.Upheld LiveServer.Steady timeout) queries)
    (p : ServerProcess) (server : Server) (journal : List Entry)
    (starts : List ServerProcess.Start) :
    (conclude finish (withServer env settings last queries p server
        { journal := journal, starts := starts })).trace.starts = starts ∧
      TakenDown env settings queries p server (conclude finish
        (withServer env settings last queries p server
          { journal := journal, starts := starts })) := by
  have hnew := Session.new_of_positive hpositive
  obtain ⟨said, t, t', hsaid, hclosed, hphase, hsteady, hresult, htrace⟩ :=
    converse_closed env settings last { timeout := ⟨settings.timeout, hpositive⟩ } hwait
      (hqueries _) (LiveServer.steady_connect server p.child journal)
      { journal := journal, starts := starts }
  unfold withServer
  rw [hnew]
  dsimp only
  generalize converse env settings last queries _ _ _ = c at hresult htrace ⊢
  have hleft : c.trace.live = some t'.peer.closeConnection := by rw [htrace, Trace.closed]
  rw [hleft, Option.getD_some]
  obtain ⟨stopped, live, htaken, hwanes, hlistener⟩ :=
    takeDown_spec p settings.timeout t'.peer.closeConnection c
  rw [canAwait_of_canWait hwait, htrace, hresult] at htaken
  generalize takeDown p settings.timeout t'.peer.closeConnection c = c' at htaken ⊢
  have hended := congrArg Closing.result htaken
  obtain ⟨journal', hjournal⟩ := conclude_trace finish c'
  rw [congrArg Closing.trace htaken] at hjournal
  have hclosing := Connection.moves_close (P := fun _ => True) t'.peer.connection
    Connection.closedByClient
  have hshut := hwanes.future.closed (Connection.isClosed_shutdown ..)
  have horderly := hwanes.future.orderly (hclosing.orderly hsteady.orderly)
  have hstarted := hclosing.started hsteady.attended.started
  refine ⟨by rw [hjournal]; rfl, .mk hnew hsaid hclosed (by rw [hjournal]; rfl)
    (by rw [hjournal]; rfl) hphase (by rw [hjournal]; rfl) hwanes.future hshut
    (horderly.sealed hshut) (by rw [hjournal]; rfl) fun code hcode => ?_⟩
  refine ⟨hlistener hstarted code hcode, fun fault => ?_⟩
  have hstop : (ServerProcess.stop { p with child := t'.peer.closeConnection.child }).result =
      .ok code := hcode
  rw [hstop] at hended
  rw [conclude_error_iff, hended]
  rfl

/-! ## Whole runs -/

/-- What the search for the installed server finds. -/
def located (env : Environment) (settings : ScanSettings) :
    Except Fault Installation × List Entry :=
  Installation.locate env.disk env.homes settings.serverHome env.system env.machine

/-- What the system is asked to start for an installed server. -/
def startOf (settings : ScanSettings) (i : Installation) : ServerProcess.Start :=
  ServerProcess.startFor i settings.repoPath settings.dataDir settings.java

/-- What a run does around its queries. -/
structure Scoped (env : Environment) (settings : ScanSettings) (queries : Installation → RunM α)
    (r : Report β) : Prop where
  once : r.trace.starts.length ≤ 1
  /-- Without an installed server nothing is started. -/
  unlocated : ∀ {fault es}, located env settings = (.error fault, es) →
    r.trace.starts = [] ∧ r.result = .error fault
  unlaunched : ∀ {i es}, located env settings = (.ok i, es) →
    ∀ {fault ls}, ServerProcess.launch env.spawn (startOf settings i) settings.java =
      (.error fault, ls) →
    r.trace.starts = [startOf settings i] ∧ r.result = .error fault
  /-- A child with both pipes is taken down. -/
  takenDown : ∀ {i es}, located env settings = (.ok i, es) →
    ∀ {child server}, env.spawn (startOf settings i) = .ok (child, server) →
    child.stdin.isSome = true → child.stdout.isSome = true →
    r.trace.starts = [startOf settings i] ∧
      ∃ p, ServerProcess.own child (startOf settings i).command ServerProcess.terminateTimeout =
        .ok p ∧ TakenDown env settings (queries i) p server r

section

variable {journal : List Entry} {queries : Installation → RunM α} {i : Installation} {fault : Fault}
  {es ls : List Entry}

theorem withSession_of_unlocated (h : located env settings = (.error fault, es)) :
    ∃ journal', withSession env settings last journal queries =
      early fault { journal := journal' } := by
  unfold located at h
  unfold withSession
  dsimp only
  rw [h]
  exact ⟨_, rfl⟩

theorem withSession_of_unlaunched (h : located env settings = (.ok i, es))
    (hlaunch : ServerProcess.launch env.spawn (startOf settings i) settings.java =
      (.error fault, ls)) :
    ∃ journal', withSession env settings last journal queries =
      early fault { journal := journal', starts := [startOf settings i] } := by
  unfold located at h
  unfold startOf at hlaunch
  unfold withSession
  dsimp only
  rw [h]
  dsimp only
  rw [hlaunch]
  exact ⟨_, rfl⟩

theorem withSession_of_launched {p : ServerProcess} {server : Server}
    (h : located env settings = (.ok i, es))
    (hlaunch : ServerProcess.launch env.spawn (startOf settings i) settings.java =
      (.ok (p, server), ls)) :
    ∃ journal', withSession env settings last journal queries =
      withServer env settings last (queries i) p server
        { journal := journal', starts := [startOf settings i] } := by
  unfold located at h
  unfold startOf at hlaunch
  unfold withSession
  dsimp only
  rw [h]
  dsimp only
  rw [hlaunch]
  exact ⟨_, rfl⟩

/-- A run that ends early ends in the fault it has met. -/
theorem conclude_early (finish : α → List Notice → β) (fault : Fault) (trace : Trace) :
    (conclude finish (early fault trace)).trace.starts = trace.starts ∧
      (conclude finish (early fault trace)).result = .error fault :=
  ⟨rfl, rfl⟩

/-- A run around its queries starts at most one server, and takes it down. -/
theorem withSession_scoped (finish : α → List Notice → β) (last : RunStage) (journal : List Entry)
    (hpositive : Invariant.isPositive? settings.timeout = some true)
    (hwait : Timeout.canWait settings.timeout = .ok ())
    (hqueries : ∀ i timeout, Maintains (Talk.Upheld LiveServer.Steady timeout) (queries i)) :
    Scoped env settings queries (conclude finish
      (withSession env settings last journal queries)) := by
  generalize hr : conclude finish (withSession env settings last journal queries) = r
  have hunlocated : ∀ {fault es}, located env settings = (.error fault, es) →
      r.trace.starts = [] ∧ r.result = .error fault := by
    intro fault es h
    obtain ⟨journal', hsession⟩ := withSession_of_unlocated h
    rw [← hr, hsession]
    exact conclude_early ..
  have hunlaunched : ∀ {i es}, located env settings = (.ok i, es) →
      ∀ {fault ls}, ServerProcess.launch env.spawn (startOf settings i) settings.java =
        (.error fault, ls) →
      r.trace.starts = [startOf settings i] ∧ r.result = .error fault := by
    intro i es h fault ls hlaunch
    obtain ⟨journal', hsession⟩ := withSession_of_unlaunched h hlaunch
    rw [← hr, hsession]
    exact conclude_early ..
  have hlaunched : ∀ {i es}, located env settings = (.ok i, es) →
      ∀ {p server ls}, ServerProcess.launch env.spawn (startOf settings i) settings.java =
        (.ok (p, server), ls) →
      r.trace.starts = [startOf settings i] ∧
        TakenDown env settings (queries i) p server r := by
    intro i es h p server ls hlaunch
    obtain ⟨journal', hsession⟩ := withSession_of_launched h hlaunch
    rw [← hr, hsession]
    exact withServer_takenDown finish last hpositive hwait (hqueries i) p server journal' _
  refine ⟨?_, hunlocated, hunlaunched, ?_⟩
  · rcases hlocate : located env settings with ⟨fault | i, es⟩
    · simp [(hunlocated hlocate).1]
    · rcases hlaunch : ServerProcess.launch env.spawn (startOf settings i) settings.java with
        ⟨fault | ⟨p, server⟩, ls⟩
      · simp [(hunlaunched hlocate hlaunch).1]
      · simp [(hlaunched hlocate hlaunch).1]
  · intro i es hlocate child server hspawn hstdin hstdout
    have hown := ServerProcess.own_of_piped hstdin hstdout (startOf settings i).command
    obtain ⟨ls, hlaunch⟩ := ServerProcess.launch_of_own settings.java hspawn hown
    obtain ⟨hstarts, htaken⟩ := hlaunched hlocate hlaunch
    exact ⟨hstarts, _, hown, htaken⟩

end

/-- **Every run is taken down, and keeps its first fault.** Let the time to wait be a positive
number that can be waited. A run without anything to be about ends before it starts a server.
Otherwise it starts at most one server, and none unless one is installed. Whatever comes of its
conversation with a server that it can talk to, it closes the session, then the connection, then
stops the child and at last waits for the listener, each of them once; the session is closed in the
end, and so is the connection, on which nothing is pending. If stopping the child meets no fault,
then the run ends in the fault that the failing stage has met. -/
theorem runs_taken_down (env : Environment) (settings : ScanSettings)
    (hpositive : Invariant.isPositive? settings.timeout = some true)
    (hwait : Timeout.canWait settings.timeout = .ok ()) :
    (∀ fault, settings.target = .error fault →
      (scan env settings).trace.starts = [] ∧ (scan env settings).result = .error fault) ∧
    (∀ target, settings.target = .ok target →
      Scoped env settings (scanQueries env settings target) (scan env settings)) ∧
    (∀ fault, env.disk.sourceFiles env.searchRoom settings.repoPath sourceSuffix = .error fault →
      (chunks env settings).trace.starts = [] ∧ (chunks env settings).result = .error fault) ∧
    (∀ files, env.disk.sourceFiles env.searchRoom settings.repoPath sourceSuffix = .ok files →
      Scoped env settings (chunkQueries env settings files) (chunks env settings)) ∧
    ∀ query, Scoped env settings (searchQueries query) (search env settings query) := by
  have hkeeps := LiveServer.steady_kept
  refine ⟨fun fault h => ?_, fun target h => ?_, fun fault h => ?_, fun files h => ?_,
    fun query => ?_⟩
  · rw [scan, h]
    exact ⟨rfl, rfl⟩
  · rw [scan, h]
    exact withSession_scoped _ _ _ hpositive hwait fun i _ =>
      scanQueries_upholds hkeeps env settings target i
  · rw [chunks, h]
    exact ⟨rfl, rfl⟩
  · rw [chunks, h]
    exact withSession_scoped _ _ _ hpositive hwait fun i _ =>
      chunkQueries_upholds hkeeps env settings files i
  · exact withSession_scoped _ _ _ hpositive hwait fun i _ =>
      searchQueries_upholds hkeeps query i

/-- The sample has an installed server. -/
theorem sample_located : ∃ i es, located sampleEnvironment sampleSettings = (.ok i, es) := by
  have hfound : (located sampleEnvironment sampleSettings).1.toOption.isSome = true := by
    decide +kernel
  rcases hlocate : located sampleEnvironment sampleSettings with ⟨fault | i, es⟩
  · rw [hlocate] at hfound
    cases hfound
  · exact ⟨i, es, rfl⟩

/-- The server of the sample is taken down after a search. To scan a file that the settings do not
name, it is not even started. -/
theorem sample_taken_down :
    Invariant.isPositive? sampleSettings.timeout = some true ∧
      Timeout.canWait sampleSettings.timeout = .ok () ∧
      (scan sampleEnvironment sampleSettings).trace.starts = [] ∧
      ∃ i p server, TakenDown sampleEnvironment sampleSettings (searchQueries "f" i) p server
        (search sampleEnvironment sampleSettings "f") := by
  have hpositive : Invariant.isPositive? sampleSettings.timeout = some true := by decide +kernel
  have hwait : Timeout.canWait sampleSettings.timeout = .ok () := rfl
  obtain ⟨huntargeted, -, -, -, hsearch⟩ :=
    runs_taken_down sampleEnvironment sampleSettings hpositive hwait
  obtain ⟨i, es, hlocate⟩ := sample_located
  obtain ⟨-, p, -, htaken⟩ := (hsearch "f").takenDown hlocate rfl rfl rfl
  exact ⟨hpositive, hwait, (huntargeted _ rfl).1, i, p, _, htaken⟩

end Run

end SymbolAtlas
