import SymbolAtlas.Proofs.Run.Faults
import SymbolAtlas.Server.Scripted

/-!
# Runs and the session they hold

Whatever the repository, the settings and the server are like, a run asks its session only for what
fits: no run ends because an operation did not fit the phase of the session, or because a place was
reached that nothing should reach. Each look-up of references is in a document that is open when it
is made.

* `Run.ReachesLinking` — how a run comes to the look-ups;
* `Run.LooksUp` — the look-ups, with the talk in which each is made;
* `Run.runs_tame` — the faults of whole runs, and what holds at each look-up.
-/

namespace SymbolAtlas.Run

open Session

/-! ## Look-ups -/

/-- A run that goes through the files with a new session comes to linking, with these methods and
in this talk. -/
inductive ReachesLinking (env : Environment) (settings : ScanSettings) (files : List Path)
    (s : LiveServer) : List MethodChunk → Talk LiveServer → Prop
  | mk {session : Session} {v : Json} {t t' : Talk LiveServer} {found : List (List MethodChunk)}
      (hnew : Session.new settings.timeout = .ok session)
      (hgreeted : exec (handshake env.disk env.processId settings.repoPath) ⟨session, s⟩ = (.ok v, t))
      (hfound : exec (files.mapM (fileChunks env settings)) t = (.ok found, t')) :
      ReachesLinking env settings files s found.flatten t'

/-- While methods are linked from a talk on, references are looked up for one of them, in the talk
that the methods before it lead to. -/
inductive LooksUp (cs : List MethodChunk) (t : Talk LiveServer) :
    MethodChunk → Talk LiveServer → Prop
  | mk {done rest : List MethodChunk} {c : MethodChunk} {refs : List (List Lsp.Location)}
      {u : Talk LiveServer} (hcs : cs = done ++ c :: rest)
      (hdone : exec (CallGraph.collect referencesTo skipReferences done) t = (.ok refs, u))
      (hselection : c.selection?.isSome = true) : LooksUp cs t c u

variable {env : Environment} {settings : ScanSettings} {files : List Path} {s : LiveServer}
  {cs : List MethodChunk} {t u : Talk LiveServer} {c : MethodChunk}

/-- A look-up is made in a document that is open, for a method with a selection range. -/
theorem LooksUp.opened (h : LooksUp cs t c u) {uris : List Text} (ht : t.Holds uris)
    (hcs : AllAnchored uris cs) :
    ∃ place selection, c.location = some place ∧ place.selection = some selection ∧
      u.session.phase = .documentOpen ∧ Fields.has u.session.documents place.uri = true := by
  obtain @⟨done, rest, c, refs, u, rfl, hdone, hselection⟩ := h
  have hu : u.Holds uris :=
    (collect_ensures fun c' hc' => hcs c' (List.mem_append_left _ hc')).of_ok ht hdone
  obtain ⟨selection, hsome⟩ := Option.isSome_iff_exists.1 hselection
  obtain ⟨place, hplace, hplaced⟩ := Option.bind_eq_some_iff.1 hsome
  obtain ⟨uri, huri, hanchored⟩ := hcs c (by simp)
  obtain rfl : place.uri = uri := hanchored place hplace (hplaced ▸ rfl)
  exact ⟨place, selection, hplace, hplaced, hu.phase huri, hu.opened _ huri⟩

theorem result_conclude_error {α β : Type} {finish : α → List Notice → β} {c : Closing α}
    {fault : Fault} (h : (conclude finish c).result = .error fault) :
    ∃ i, c.result = .error i ∧ i.fault = fault := by
  unfold conclude at h
  dsimp only at h
  split at h
  · cases h
  · next i hi =>
    cases h
    exact ⟨i, hi, rfl⟩

/-- **No run loses track of its session.** Its references are looked up in documents that are open
at that moment, and for methods with a selection range. -/
theorem runs_tame (env : Environment) (settings : ScanSettings) (hpipes : env.GivesPipes)
    (htimeout : Invariant.isPositive? settings.timeout ≠ some false) :
    (∀ fault, (scan env settings).result = .error fault → fault.Tame) ∧
    (∀ fault, (chunks env settings).result = .error fault → fault.Tame) ∧
    (∀ query fault, (search env settings query).result = .error fault → fault.Tame) ∧
    ∀ files s cs t c u, ReachesLinking env settings files s cs t → LooksUp cs t c u →
      ∃ place selection, c.location = some place ∧ place.selection = some selection ∧
        u.session.phase = .documentOpen ∧ Fields.has u.session.documents place.uri = true := by
  refine ⟨fun fault h => ?_, fun fault h => ?_, fun query fault h => ?_, ?_⟩
  · unfold scan at h
    split at h
    · next htarget =>
      cases h
      unfold ScanSettings.target at htarget
      split at htarget <;> cases htarget
      exact ⟨rfl, rfl⟩
    · next target htarget =>
      obtain ⟨i, hi, rfl⟩ := result_conclude_error h
      exact withSession_tame hpipes htimeout (scanQueries_ensures env settings target) hi
  · unfold chunks at h
    split at h
    · next hfiles =>
      cases h
      exact (Disk.among_of_sourceFiles hfiles).tame (by simp) (by simp)
    · next files hfiles =>
      obtain ⟨i, hi, rfl⟩ := result_conclude_error h
      exact withSession_tame hpipes htimeout (chunkQueries_ensures env settings files) hi
  · obtain ⟨i, hi, rfl⟩ := result_conclude_error h
    exact withSession_tame hpipes htimeout (searchQueries_ensures query) hi
  · intro files s cs t c u hlinking hlookup
    obtain @⟨session, v, t₁, t₂, found, hnew, hgreeted, hfound⟩ := hlinking
    have hready := (handshake_ensures LiveServer.faithful _ _ _).of_ok (new_tidy hnew) hgreeted
    obtain ⟨uris, ht, hanchored⟩ := (mapM_fileChunks_ensures env settings files []).of_ok hready hfound
    exact hlookup.opened ht (by simpa using hanchored)

/-! ## A sample -/

/-- A repository with two methods, one of which calls the other, and an installed server. -/
def sampleDisk : Disk :=
  { tree := .dir [
      ("repo", .dir [("A.java",
        .file (Text.Utf8.encode "class A\n void f();\n void g();\n".toList))]),
      ("jdt", .dir [
        ("plugins", .dir [("org.eclipse.equinox.launcher_1.jar", .file [])]),
        ("config_linux", .dir [])])]
    workingDir := [] }

/-- A range as a server writes it. -/
def sampleRange (line first last : Nat) : Json :=
  .obj [
    ("start", .obj [("line", .int line), ("character", .int first)]),
    ("end", .obj [("line", .int line), ("character", .int last)])]

/-- A method on one line as a server writes it. -/
def sampleMethod (name : String) (line : Nat) : Json :=
  .obj [("name", .str name), ("kind", .int 6), ("range", sampleRange line 0 10),
    ("selectionRange", sampleRange line 6 7)]

/-- A server that knows the two methods and the call. -/
def sampleScript : Script :=
  { onMethod := [
      ("textDocument/documentSymbol", [.byUri [("file:///repo/A.java", .arr [
        .obj [("name", .str "A"), ("kind", .int 5), ("range", sampleRange 0 0 7),
          ("selectionRange", sampleRange 0 6 7),
          ("children", .arr [sampleMethod "f" 1, sampleMethod "g" 2])]])]]),
      ("textDocument/references", [.byPosition [("file:///repo/A.java:1:6", .arr [
        .obj [("uri", .str "file:///repo/A.java"), ("range", sampleRange 2 12 13)]])]])] }

/-- What a run finds around it that has the repository and the server. -/
def sampleEnvironment : Environment :=
  { disk := sampleDisk, homes := { own := "/home" }, processId := 1, system := "Linux",
    machine := "x86_64", spawn := fun _ => .ok ({}, sampleScript.server) }

/-- Settings for the repository. -/
def sampleSettings : ScanSettings :=
  { repoPath := Path.parse "/repo", serverHome := Path.parse "/jdt", filePath := none,
    timeout := .int 5 }

/-- The files of the sample. -/
def sampleFiles : List Path := [Path.parse "/repo/A.java"]

/-- The sample's session before anything is exchanged. -/
def sampleSession : Session :=
  { timeout := ⟨.int 5, by decide +kernel⟩ }

/-- The sample's server when it has just been started. -/
def sampleServer : LiveServer :=
  .connect sampleScript.server {} []

/-- The methods of the sample. -/
def sampleFound : Except Interruption (List (List MethodChunk)) × Talk LiveServer :=
  exec (conversation sampleEnvironment sampleSettings
    (sampleFiles.mapM (fileChunks sampleEnvironment sampleSettings))) ⟨sampleSession, sampleServer⟩

set_option maxRecDepth 100000 in
/-- The first method of the sample has a selection range. -/
theorem sampleFound_selection :
    (sampleFound.1.toOption.any fun found =>
      found.flatten.head?.any fun c => c.selection?.isSome) = true := by
  decide +kernel

/-- The run of the sample looks up references. -/
theorem sample_looksUp : ∃ cs t c u,
    ReachesLinking sampleEnvironment sampleSettings sampleFiles sampleServer cs t ∧
      LooksUp cs t c u := by
  have hselection := sampleFound_selection
  rcases hrun : sampleFound with ⟨e | found, t'⟩
  · rw [hrun] at hselection
    cases hselection
  · rw [hrun] at hselection
    change (found.flatten.head?.any fun c => c.selection?.isSome) = true at hselection
    rw [sampleFound, conversation] at hrun
    obtain ⟨v, t, hgreeted, hfound⟩ := exec_ok_of_bind hrun
    have hlinking : ReachesLinking sampleEnvironment sampleSettings sampleFiles sampleServer
        found.flatten t' := .mk rfl (exec_of_during hgreeted) hfound
    cases hflatten : found.flatten with
    | nil => simp [hflatten] at hselection
    | cons c rest =>
      rw [hflatten] at hselection hlinking
      have hfirst : c :: rest = [] ++ c :: rest := rfl
      exact ⟨_, _, c, _, hlinking, .mk hfirst rfl (by simpa using hselection)⟩

/-- The run of the sample succeeds, so its look-ups are made. -/
theorem runs_tame_sample :
    sampleEnvironment.GivesPipes ∧ Invariant.isPositive? sampleSettings.timeout ≠ some false ∧
      (∀ fault, (chunks sampleEnvironment sampleSettings).result = .error fault → fault.Tame) ∧
      ∃ cs t c u,
        (ReachesLinking sampleEnvironment sampleSettings sampleFiles sampleServer cs t ∧
          LooksUp cs t c u) ∧
        ∃ place selection, c.location = some place ∧ place.selection = some selection ∧
          u.session.phase = .documentOpen ∧
          Fields.has u.session.documents place.uri = true := by
  have hpipes : sampleEnvironment.GivesPipes := by
    rintro start child server ⟨⟩
    exact ⟨rfl, rfl⟩
  have htimeout : Invariant.isPositive? sampleSettings.timeout ≠ some false := by decide +kernel
  obtain ⟨-, hchunks, -, hlookups⟩ := runs_tame sampleEnvironment sampleSettings hpipes htimeout
  obtain ⟨cs, t, c, u, hlinking, hlookup⟩ := sample_looksUp
  exact ⟨hpipes, htimeout, hchunks, cs, t, c, u, ⟨hlinking, hlookup⟩,
    hlookups _ _ _ _ _ _ hlinking hlookup⟩

end SymbolAtlas.Run
