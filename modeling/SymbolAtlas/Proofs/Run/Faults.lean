import SymbolAtlas.Proofs.Run.Closing
import SymbolAtlas.Proofs.Session.Guarantees
import SymbolAtlas.Run.Queries

/-!
# The faults that runs end in

A run that is set up as it should be never loses track of its own session: it does not ask for
anything that does not fit the phase of the session, and it reaches no place that nothing should
reach.

* `Fault.Tame` — a fault that is neither of these;
* `Environment.GivesPipes` — what a run relies on when it starts a server;
* `Run.Kept` — what taking down does to a result, with `Run.takeDown_kept`;
* `Run.scanQueries_ensures`, `Run.chunkQueries_ensures`, … — the queries, of which
  `Run.fileChunks_ensures` follows the addresses of documents into the methods collected;
* `Run.withSession_tame` — the faults of a whole run, from those of its queries.
-/

namespace SymbolAtlas

/-- The fault is not that of an operation that does not fit the phase of the session or of a place
that nothing should reach. -/
def Fault.Tame (fault : Fault) : Prop :=
  fault.isKind .sessionState = false ∧ fault.isKind .unreachable = false

theorem Fault.Among.tame {fault : Fault} {kinds : List Failure.Kind} (h : fault.Among kinds)
    (hstate : .sessionState ∉ kinds) (hnever : .unreachable ∉ kinds) : fault.Tame := by
  cases fault with
  | stray e => exact ⟨rfl, rfl⟩
  | failure f =>
    have hmem := h f rfl
    constructor <;> refine beq_eq_false_iff_ne.2 ?_ <;> rintro heq <;> rw [heq] at hmem
    · exact hstate hmem
    · exact hnever hmem

theorem Fault.Foreseen.tame {fault : Fault} (h : fault.Foreseen) : fault.Tame :=
  Fault.Among.tame h (by simp) (by simp)

theorem Fault.Tame.stray (e : Stray) : (Fault.stray e).Tame :=
  ⟨rfl, rfl⟩

/-! ## Setting up -/

/-- A server that is started can be talked to. -/
def Environment.GivesPipes (env : Environment) : Prop :=
  ∀ start child server, env.spawn start = .ok (child, server) →
    child.stdin.isSome = true ∧ child.stdout.isSome = true

theorem Timeout.among_of_require {v : Json} {reason : String} {fault : Fault}
    (h : Invariant.isPositive? v ≠ some false) (herror : Timeout.require v reason = .error fault) :
    fault.Among [] := by
  unfold Timeout.require Invariant.requirePositive at herror
  split at herror
  · cases herror
  · split at herror
    · next e he =>
      cases herror
      split at he
      · cases he
      · next hfalse => exact absurd hfalse h
      · cases he
        rintro f ⟨⟩
    · cases herror
      rintro f ⟨⟩

theorem Session.among_of_new {timeout : Json} {fault : Fault}
    (h : Invariant.isPositive? timeout ≠ some false) (hnew : Session.new timeout = .error fault) :
    fault.Among [] := by
  unfold Session.new at hnew
  cases hrequire : Timeout.require timeout "invalid request timeout" with
  | ok t => simp [hrequire, Except.map] at hnew
  | error e =>
    obtain rfl : e = fault := by simpa [hrequire, Except.map] using hnew
    exact Timeout.among_of_require h hrequire

namespace Installation

variable {d : Disk} {fault : Fault}

theorem among_of_findLauncher {plugins : Path} (h : findLauncher d plugins = .error fault) :
    fault.Among [.launcherMissing, .launcherAmbiguous] := by
  unfold findLauncher at h
  split at h <;> cases h <;> rintro f ⟨⟩ <;> simp [Failure.kind]

theorem among_of_findConfigDir {root : Path} {platform machine : String}
    (h : findConfigDir d root platform machine = .error fault) :
    fault.Among [.configDirMissing] := by
  unfold findConfigDir at h
  dsimp only at h
  split at h <;> cases h <;> rintro f ⟨⟩
  simp [Failure.kind]

theorem among_of_locateAt {root : Path} {system machine : String}
    (h : locateAt d root system machine = .error fault) :
    fault.Among [.launcherMissing, .launcherAmbiguous, .configDirMissing] := by
  unfold locateAt at h
  cases hlauncher : findLauncher d (root.child pluginsName) with
  | error e =>
    obtain rfl : e = fault := by simpa [hlauncher, bind, Except.bind] using h
    exact (among_of_findLauncher hlauncher).mono (by simp)
  | ok launcher =>
    cases hconfig : findConfigDir d root (Platform.ofSystem system).label machine with
    | error e =>
      obtain rfl : e = fault := by simpa [hlauncher, hconfig, bind, Except.bind] using h
      exact (among_of_findConfigDir hconfig).mono (by simp)
    | ok configDir => simp [hlauncher, hconfig, bind, Except.bind, pure, Except.pure] at h

theorem among_of_locate {homes : Homes} {p : Path} {system machine : String} {es : List Entry}
    (h : locate d homes p system machine = (.error fault, es)) :
    fault.Among [.launcherMissing, .launcherAmbiguous, .configDirMissing] := by
  unfold locate at h
  split at h
  · cases h
    rintro f ⟨⟩
  · split at h
    · cases h
    · next hat =>
      cases h
      exact among_of_locateAt hat
    · cases h
      rintro f ⟨⟩

end Installation

/-- The time that a server gets to end is one. -/
theorem ServerProcess.terminateTimeout_isPositive :
    Invariant.isPositive? ServerProcess.terminateTimeout = some true := by
  decide +kernel

theorem ServerProcess.among_of_launch {α : Type} {spawn : Start → Except String (Child × α)}
    {start : Start} {java : Text} {fault : Fault} {es : List Entry}
    (hpipes : ∀ child more, spawn start = .ok (child, more) →
      child.stdin.isSome = true ∧ child.stdout.isSome = true)
    (h : ServerProcess.launch spawn start java = (.error fault, es)) :
    fault.Among [.launch] := by
  unfold ServerProcess.launch at h
  dsimp only at h
  split at h
  · cases h
    rintro f ⟨⟩
    simp [Failure.kind]
  · next child more hspawn =>
    obtain ⟨hstdin, hstdout⟩ := hpipes child more hspawn
    unfold own at h
    rw [Option.isNone_eq_false_iff.2 hstdin, Option.isNone_eq_false_iff.2 hstdout] at h
    rw [if_neg (by simp)] at h
    cases hrequire : Timeout.require terminateTimeout "invalid terminate timeout" with
    | ok timeout => simp [hrequire, Except.map] at h
    | error e =>
      have hamong := Timeout.among_of_require (by simp [terminateTimeout_isPositive]) hrequire
      obtain ⟨rfl, -⟩ : e = fault ∧ _ := by simpa [hrequire, Except.map] using h
      exact hamong.mono (by simp)

theorem Disk.among_of_sourceFiles {d : Disk} {room : Nat} {root : Path} {suffix : Text}
    {fault : Fault} (h : d.sourceFiles room root suffix = .error fault) : fault.Among [] := by
  unfold Disk.sourceFiles at h
  split at h
  · cases h
    rintro f ⟨⟩
  · next steps hsteps =>
    obtain ⟨e, -, rfl⟩ := mapError_eq_error.1 h
    cases e <;> rintro f ⟨⟩

theorem LiveServer.faithful : Peer.Faithful LiveServer := by
  intro call p q fault h
  change p.notify call = _ at h
  unfold notify Connection.sendNotification at h
  split at h
  · next hsend =>
    cases h
    split at hsend
    · cases hsend
      rintro f ⟨⟩
      simp [Failure.kind]
    · dsimp only at hsend
      split at hsend <;> cases hsend <;> rintro f ⟨⟩
      simp [Failure.kind]
  · cases h

namespace Run

open Session

variable {α : Type}

theorem exec_during (stage : RunStage) (step : SessionM LiveServer α) (t : Talk LiveServer) :
    exec (during stage step) t = ((exec step t).1.mapError (Interruption.mk stage), (exec step t).2) :=
  rfl

theorem exec_of_during {stage : RunStage} {step : SessionM LiveServer α} {t t' : Talk LiveServer}
    {a : α} (h : exec (during stage step) t = (.ok a, t')) : exec step t = (.ok a, t') := by
  rw [exec_during] at h
  generalize exec step t = r at h
  obtain ⟨e | b, u⟩ := r
  · cases h
  · cases h
    rfl

/-- A step of a session guarantees as part of a stage what it guarantees by itself. -/
theorem during_ensures {P : Talk LiveServer → Prop} {step : SessionM LiveServer α}
    {Q : α → Talk LiveServer → Prop} {E : Fault → Prop} (stage : RunStage)
    (h : Ensures P step Q E) : Ensures P (during stage step) Q fun i => E i.fault := by
  intro t ht
  have h := h t ht
  rw [exec_during]
  generalize exec step t = r at h ⊢
  obtain ⟨e | a, t'⟩ := r
  · exact h
  · exact h

/-! ## Queries -/

variable (env : Environment) (settings : ScanSettings)

theorem scanQueries_ensures (target : Path) (installation : Installation) :
    Ensures (Talk.Holds []) (scanQueries env settings target installation) (fun _ _ => True)
      fun i => i.fault.Foreseen := by
  unfold scanQueries
  refine (during_ensures _ ?_).bind fun document =>
    (during_ensures _ (documentSymbols_ensures none (d := document) (List.mem_singleton_self _))).bind
      fun symbols => .pure _ fun _ _ => trivial
  exact (note_ensures _ _ _).bind fun _ =>
    (openDocument_ensures LiveServer.faithful env.disk target settings.languageId).weaken
      (fun _ h => h) fun d t h => ⟨h.1, by simp [h.2]⟩

theorem searchQueries_ensures (query : String) (installation : Installation) :
    Ensures (Talk.Holds []) (searchQueries query installation) (fun _ _ => True)
      fun i => i.fault.Foreseen :=
  (during_ensures _ (workspaceSymbols_ensures query)).bind fun _ => .pure _ fun _ _ => trivial

theorem noteAll_ensures {uris : List Text} (es : List Entry) :
    Ensures (Talk.Holds uris) (noteAll es) (fun _ => Talk.Holds uris) Fault.Foreseen :=
  fun _ ht => ⟨ht.tidy, ht.ready, ht.opened⟩

/-- The methods with a selection range are in the documents with the given addresses. -/
def AllAnchored (uris : List Text) (cs : List MethodChunk) : Prop :=
  ∀ c ∈ cs, ∃ uri ∈ uris, c.Anchored uri

/-- A file is opened, and the methods collected from it are in it. -/
theorem fileChunks_ensures (uris : List Text) (path : Path) :
    Ensures (Talk.Holds uris) (fileChunks env settings path)
      (fun cs t => ∃ uri, t.Holds (uri :: uris) ∧ ∀ c ∈ cs, c.Anchored uri)
      fun i => i.fault.Foreseen := by
  refine (during_ensures _ (openDocument_ensures LiveServer.faithful env.disk path
    settings.languageId)).bind fun document => during_ensures _ ?_
  have hasked := documentSymbols_ensures (τ := LiveServer) (some document)
    (List.mem_cons_self (a := document.uri) (l := uris))
  refine (hasked.weaken (fun t ht => ⟨ht.1, rfl⟩) fun ns t ht => ht).bind fun ns => ?_
  refine .given fun hns => (noteAll_ensures _).bind fun _ => .pure _ fun t ht => ?_
  exact ⟨document.uri, ht, fun c hc => MethodChunk.anchored_of_extract hns hc⟩

/-- The loop over the files opens documents, and every method collected is in one of them. -/
theorem mapM_fileChunks_ensures (files : List Path) (uris : List Text) :
    Ensures (Talk.Holds uris) (files.mapM (fileChunks env settings))
      (fun found t => ∃ uris', t.Holds (uris' ++ uris) ∧ AllAnchored uris' found.flatten)
      fun i => i.fault.Foreseen := by
  induction files generalizing uris with
  | nil => exact .pure _ fun t ht => ⟨[], ht, by simp [AllAnchored]⟩
  | cons path files ih =>
    rw [List.mapM_cons]
    refine (fileChunks_ensures env settings uris path).bind fun cs => .exists_ fun uri => ?_
    refine .given fun hcs => (ih (uri :: uris)).bind fun found => .exists_ fun uris' => ?_
    refine .given fun hfound => .pure _ fun t ht => ⟨uris' ++ [uri], by simpa using ht, ?_⟩
    intro c hc
    rw [List.flatten_cons, List.mem_append] at hc
    obtain hc | hc := hc
    · exact ⟨uri, by simp, hcs c hc⟩
    · obtain ⟨uri', huri', hanchored⟩ := hfound c hc
      exact ⟨uri', by simp [huri'], hanchored⟩

/-- A look-up is made for a method with a selection range, in a document that is open. -/
theorem referencesTo_ensures {uris : List Text} {c : MethodChunk}
    (hselection : c.selection?.isSome = true) (hc : ∃ uri ∈ uris, c.Anchored uri) :
    Ensures (Talk.Holds uris) (referencesTo c) (fun _ => Talk.Holds uris) Fault.Foreseen := by
  obtain ⟨selection, hsome⟩ := Option.isSome_iff_exists.1 hselection
  obtain ⟨⟨uri', range, selection'⟩, hplace, rfl⟩ := Option.bind_eq_some_iff.1 hsome
  obtain ⟨uri, huri, hanchored⟩ := hc
  obtain rfl : uri' = uri := hanchored _ hplace rfl
  rw [referencesTo, hplace]
  exact references_ensures huri _

theorem collect_ensures {uris : List Text} {cs : List MethodChunk} (hcs : AllAnchored uris cs) :
    Ensures (Talk.Holds uris) (CallGraph.collect referencesTo skipReferences cs)
      (fun _ => Talk.Holds uris) Fault.Foreseen := by
  refine .mapM fun c hc => ?_
  split
  · next hselection => exact referencesTo_ensures hselection (hcs c hc)
  · exact (note_ensures _ _ _).bind fun _ => .pure _ fun t ht => ht

theorem linkChunks_ensures {uris : List Text} {cs : List MethodChunk} (hcs : AllAnchored uris cs) :
    Ensures (Talk.Holds uris) (linkChunks cs) (fun _ => Talk.Holds uris) Fault.Foreseen := by
  have hlinked : Ensures (Talk.Holds uris)
      (CallGraph.linkWith referencesTo skipReferences cs) (fun _ => Talk.Holds uris)
      Fault.Foreseen :=
    (collect_ensures hcs).bind fun refs => .pure _ fun t ht => ht
  exact hlinked.bind fun linked => (note_ensures _ _ _).bind fun _ => .pure _ fun t ht => ht

theorem chunkQueries_ensures (files : List Path) (installation : Installation) :
    Ensures (Talk.Holds []) (chunkQueries env settings files installation) (fun _ _ => True)
      fun i => i.fault.Foreseen := by
  refine (mapM_fileChunks_ensures env settings files []).bind fun found => .exists_ fun uris => ?_
  refine .given fun hfound => ?_
  have hanchored : AllAnchored (uris ++ []) found.flatten := by simpa using hfound
  exact (during_ensures _ (linkChunks_ensures hanchored)).bind fun linked => .pure _ fun _ _ => trivial

/-! ## Taking down -/

/-- Closing a session hides every failure. -/
theorem stray_of_close {t t' : Talk LiveServer} {fault : Fault}
    (h : exec (Session.close : SessionM LiveServer Unit) t = (.error fault, t')) :
    ∃ e, fault = .stray e := by
  have hends := close_ends t
  rw [h] at hends
  cases fault with
  | stray e => exact ⟨e, rfl⟩
  | failure f =>
    cases hends with
    | refused es hready hopen hask hresult => exact absurd rfl (hresult f)
    | agreed es hready hopen hask htell hresult =>
      obtain ⟨rfl, hkind⟩ := hresult f rfl
      simpa [hkind] using LiveServer.faithful _ _ _ _ htell f rfl

/-- A child that cannot be stopped is not foreseen. -/
theorem stray_of_stop {p : ServerProcess} {fault : Fault} (h : p.stop.result = .error fault) :
    ∃ e, fault = .stray e := by
  cases hhalt : p.halt.result with
  | ok u =>
    rw [(ServerProcess.stop_of_halt_ok hhalt).1] at h
    cases h
  | error e =>
    rw [(ServerProcess.stop_of_halt_error hhalt).1] at h
    obtain rfl := Except.error.inj h
    unfold ServerProcess.halt at hhalt
    dsimp only at hhalt
    split at hhalt
    · cases hhalt
    · split at hhalt
      · cases hhalt
      · split at hhalt
        · cases hhalt
        · cases hhalt
          exact ⟨_, rfl⟩

/-- A result after a step of taking down: it is what it was, or a stray fault has replaced it. -/
def Kept (before after : Except Interruption α) : Prop :=
  after = before ∨ ∃ stage e, after = .error ⟨stage, .stray e⟩

namespace Kept

variable {before after later : Except Interruption α}

theorem trans (h : Kept before after) (h' : Kept after later) : Kept before later := by
  obtain rfl | hstray := h'
  · exact h
  · exact .inr hstray

theorem of_ok {a : α} (h : Kept before after) (hafter : after = .ok a) : before = .ok a := by
  obtain rfl | ⟨stage, e, rfl⟩ := h
  · exact hafter
  · cases hafter

theorem of_error {i : Interruption} (h : Kept before after) (hafter : after = .error i) :
    before = .error i ∨ ∃ e, i.fault = .stray e := by
  obtain rfl | ⟨stage, e, rfl⟩ := h
  · exact .inl hafter
  · cases hafter
    exact .inr ⟨e, rfl⟩

theorem of_replaced {ε : Type} {stage : RunStage} {met : Except Fault ε}
    (h : ∀ fault, met = .error fault → ∃ e, fault = .stray e) :
    Kept before (replaced stage before met) := by
  cases met with
  | ok a => exact .inl rfl
  | error fault =>
    obtain ⟨e, rfl⟩ := h fault rfl
    exact .inr ⟨stage, e, rfl⟩

end Kept

theorem closeSession_kept (last : RunStage) (result : Except Interruption α)
    (t : Talk LiveServer) (trace : Trace) :
    Kept result (closeSession last result t trace).result := by
  rcases hclose : exec (Session.close : SessionM LiveServer Unit) t with ⟨fault | u, t'⟩
  · obtain ⟨e, rfl⟩ := stray_of_close hclose
    exact .inr ⟨_, e, closeSession_of_error hclose trace⟩
  · exact .inl (by rw [closeSession_of_ok hclose])

theorem takeDown_kept (p : ServerProcess) (timeout : Json) (s : LiveServer) (c : Closing α) :
    Kept c.result (takeDown p timeout s c).result := by
  obtain ⟨stopped, live, htaken, -⟩ := takeDown_spec p timeout s c
  rw [htaken]
  refine (Kept.of_replaced fun _ => stray_of_stop).trans (.of_replaced fun fault h => ?_)
  cases hawait : canAwait timeout (s.connection.listener == .stopped) with
  | ok u => simp [hawait, mapError_ok] at h
  | error e =>
    rw [hawait] at h
    exact ⟨e, (Except.error.inj h).symm⟩

/-! ## Whole runs -/

/-- The handshake and the queries of a run. -/
def conversation (env : Environment) (settings : ScanSettings) (queries : RunM α) : RunM α := do
  let _ ← during .startup (handshake env.disk env.processId settings.repoPath)
  queries

theorem converse_eq (env : Environment) (settings : ScanSettings) (last : RunStage)
    (queries : RunM α) (session : Session) (s : LiveServer) (trace : Trace) :
    converse env settings last queries session s trace =
      closeSession last (exec (conversation env settings queries) ⟨session, s⟩).1
        (exec (conversation env settings queries) ⟨session, s⟩).2 trace :=
  rfl

/-- A new session is without documents, and nothing was sent for it. -/
theorem new_tidy {timeout : Json} {session : Session} (h : Session.new timeout = .ok session) :
    session.Tidy ∧ session.phase = .created := by
  unfold Session.new at h
  cases hrequire : Timeout.require timeout "invalid request timeout" with
  | error e => simp [hrequire, Except.map] at h
  | ok t =>
    rw [hrequire] at h
    cases h
    exact ⟨.of_empty rfl rfl (by simp), rfl⟩

/-- A run whose queries end well or in failures that they foresee is not ended by anything else. -/
theorem withSession_tame {env : Environment} {settings : ScanSettings} {last : RunStage}
    {journal : List Entry} {queries : Installation → RunM α} (hpipes : env.GivesPipes)
    (htimeout : Invariant.isPositive? settings.timeout ≠ some false)
    (hqueries : ∀ installation,
      Ensures (Talk.Holds []) (queries installation) (fun _ _ => True) fun i => i.fault.Foreseen)
    {i : Interruption} (h : (withSession env settings last journal queries).result = .error i) :
    i.fault.Tame := by
  have hconversation : ∀ installation,
      Ensures (fun t => t.session.Tidy ∧ t.session.phase = .created)
        (conversation env settings (queries installation)) (fun _ _ => True)
        fun i => i.fault.Foreseen := fun installation =>
    (during_ensures _ (handshake_ensures LiveServer.faithful _ _ _)).bind fun _ =>
      hqueries installation
  unfold withSession at h
  dsimp only at h
  split at h
  · next hlocate =>
    cases h
    exact (Installation.among_of_locate hlocate).tame (by simp) (by simp)
  · split at h
    · next hlaunch =>
      cases h
      exact (ServerProcess.among_of_launch (hpipes _) hlaunch).tame (by simp) (by simp)
    · unfold withServer at h
      dsimp only at h
      obtain h | ⟨e, he⟩ := (takeDown_kept ..).of_error h
      · split at h
        · next fault hnew =>
          cases h
          exact (among_of_new htimeout hnew).tame (by simp) (by simp)
        · next session hnew =>
          rw [converse_eq] at h
          obtain h | ⟨e, he⟩ := (closeSession_kept ..).of_error h
          · exact ((hconversation _).of_error (new_tidy hnew) (Prod.ext h rfl)).tame
          · exact he ▸ .stray e
      · exact he ▸ .stray e

end Run

end SymbolAtlas
