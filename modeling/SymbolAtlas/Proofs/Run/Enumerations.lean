import SymbolAtlas.Proofs.Chunks.Sources
import SymbolAtlas.Proofs.Run.Safety

/-!
# Runs and the order of directories

A run asks its disk for the list of source files, for the installed server, for texts and for the
resolved forms of paths. None of them depends on the order in which directories are enumerated, so
two runs on disks that hold the same are the same run: the same documents are opened one after
another, and the same methods are found, in the same order and with the same callers.

* `Installation.locate_reordered` — the installed server;
* `Run.withSession_reordered` — a run around its queries;
* `sourceFiles_enumerated` — the list of source files, and the run that works through it.
-/

namespace SymbolAtlas

open Disk

variable {d d' : Disk}

/-! ## The installed server -/

namespace Installation

theorem firstDir_reordered (h : d.Reordered d') (ps : List Path) :
    firstDir d' ps = firstDir d ps := by
  induction ps with
  | nil => rfl
  | cons p ps ih => rw [firstDir, firstDir, h.isDir, ih]

theorem findLauncher_reordered (h : d.Reordered d') (plugins : Path) :
    findLauncher d' plugins = findLauncher d plugins := by
  have hlaunchers : launchers d' plugins = launchers d plugins := by
    simp only [launchers, h.listNames, h.filesAmong]
  rw [findLauncher, findLauncher, hlaunchers]

/-- The same server is found. -/
theorem locate_reordered (h : d.Reordered d') (homes : Homes) (p : Path) (system machine : String) :
    locate d' homes p system machine = locate d homes p system machine := by
  have hroot : resolveRoot d' homes p = resolveRoot d homes p := by
    simp only [resolveRoot, h.resolve]
  have hat : ∀ root, locateAt d' root system machine = locateAt d root system machine := by
    intro root
    simp only [locateAt, findConfigDir, findLauncher_reordered h, firstDir_reordered h]
  simp only [locate, hroot, hat]

end Installation

/-! ## The run -/

namespace Run

open Session

variable {env : Environment}

theorem fileChunks_reordered (h : env.disk.Reordered d') (settings : ScanSettings) :
    fileChunks { env with disk := d' } settings = fileChunks env settings := by
  funext path
  simp only [fileChunks, openDocument, readDocument, Session.resolve, h.readText, h.resolve]

theorem handshake_reordered (h : d.Reordered d') (processId : Int) (root : Path) :
    (handshake d' processId root : SessionM LiveServer Json) = handshake d processId root := by
  simp only [handshake, Session.resolve, h.resolve]

/-- A run with the same queries is the same run. -/
theorem withSession_reordered {α : Type} (h : env.disk.Reordered d') (settings : ScanSettings)
    (last : RunStage) (journal : List Entry) (queries : Installation → RunM α) :
    withSession { env with disk := d' } settings last journal queries =
      withSession env settings last journal queries := by
  simp only [withSession, withServer, converse, Installation.locate_reordered h,
    handshake_reordered h]

/-- The run that works through the source files. -/
theorem chunks_reordered (h : env.disk.Reordered d') {settings : ScanSettings} {files : List Path}
    (hfiles : env.disk.sourceFiles env.searchRoom settings.repoPath sourceSuffix = .ok files)
    (hfiles' : d'.sourceFiles env.searchRoom settings.repoPath sourceSuffix = .ok files) :
    chunks { env with disk := d' } settings = chunks env settings := by
  have hqueries : chunkQueries { env with disk := d' } settings files =
      chunkQueries env settings files := by
    funext installation
    simp only [chunkQueries, fileChunks_reordered h]
  rw [chunks, chunks, hfiles, hfiles']
  dsimp only
  rw [withSession_reordered h, hqueries]

end Run

/-- **The list of source files is complete, strictly sorted and independent of how directories are
enumerated**, as long as no path that is looked at is too long and no directory lies too far down;
otherwise the search ends for one of these reasons. Runs on disks that hold the same are the same
run. -/
theorem sourceFiles_enumerated (hd : d.tree.Sound) {suffix : Text} (hs : IsPlainEnd suffix)
    (room : Nat) (root : Path) :
    (d.Fits root suffix → d.Shallow room root →
      ∃ files, d.sourceFiles room root suffix = .ok files ∧
        (∀ p, p ∈ files ↔ d.IsSource root suffix p) ∧
        (files.Pairwise fun p q => p.parts < q.parts) ∧
        ∀ d', d.Reordered d' → d'.sourceFiles room root suffix = .ok files) ∧
    (¬ (d.Fits root suffix ∧ d.Shallow room root) →
      (∃ p, d.LooksAt root suffix p ∧ d.find p = .error .nameTooLong ∧
        d.sourceFiles room root suffix = .error (.stray (.pathTooLong p))) ∨
      (¬ d.Shallow room root ∧ d.sourceFiles room root suffix = .error (.stray .tooDeep))) ∧
    ∀ d' env settings, d.Reordered d' → env.disk = d → d.Fits settings.repoPath sourceSuffix →
      d.Shallow env.searchRoom settings.repoPath →
      Run.chunks { env with disk := d' } settings = Run.chunks env settings := by
  refine ⟨fun hfits hshallow => ?_, sourceFiles_error hd hs, ?_⟩
  · obtain ⟨files, hfiles⟩ := (exists_sourceFiles_iff hd hs).2 ⟨hfits, hshallow⟩
    obtain ⟨-, -, hmem, hsorted⟩ := spec_of_sourceFiles hd hs hfiles
    exact ⟨files, hfiles, hmem, hsorted, fun d' h => h.sourceFiles hd hs hfiles⟩
  · rintro d' env settings h rfl hfits hshallow
    obtain ⟨files, hfiles⟩ :=
      (exists_sourceFiles_iff hd isPlainEnd_sourceSuffix).2 ⟨hfits, hshallow⟩
    exact Run.chunks_reordered h hfiles (h.sourceFiles hd isPlainEnd_sourceSuffix hfiles)

/-! ## A repository enumerated in two ways -/

/-- The entries of a repository with source files in two directories, one of them behind a link, and
with a directory and a link to one whose names end as those of source files do. -/
def sampleEntries : Fields Text Tree :=
  [("a", .dir [("l.java", .link "../a-b/x.java"), ("x.java", .file []), ("y.java", .link "..")]),
    ("a-b", .dir [("x.java", .file [])]),
    ("c.java", .dir [("notes", .file [])])]

/-- A disk with an installed server and a repository. -/
def repositoryDisk (entries : Fields Text Tree) : Disk :=
  { tree := .dir [
      ("jdt", .dir [
        ("plugins", .dir [("org.eclipse.equinox.launcher_1.jar", .file [])]),
        ("config_linux", .dir [])]),
      ("repo", .dir entries)]
    workingDir := [] }

/-- The source files of the repository, which come in another order than their texts. -/
def sampleSources : List Path :=
  [.parse "/repo/a/l.java", .parse "/repo/a/x.java", .parse "/repo/a-b/x.java"]

theorem repositoryDisk_sound : (repositoryDisk sampleEntries).tree.Sound := by
  simp only [repositoryDisk, sampleEntries, Tree.sound_dir_iff, List.forall_mem_cons,
    List.not_mem_nil, IsEmpty.forall_iff, implies_true, Tree.sound_file, Tree.sound_link, and_true,
    Fields.names, List.map_cons, List.map_nil]
  and_intros <;> decide

theorem repositoryDisk_reordered :
    (repositoryDisk sampleEntries).Reordered (repositoryDisk sampleEntries.reverse) := by
  have hsound := Tree.sound_dir_iff.1 repositoryDisk_sound
  refine ⟨.dir (.refl _) fun name t t' ht ht' => ?_, rfl⟩
  have hmem := (Fields.get?_eq_some_iff hsound.2.1).1 ht
  have htree := hsound.2.2 _ hmem
  simp only [Fields.get?] at ht ht'
  split_ifs at ht ht' with hjdt hrepo
  · cases ht
    cases ht'
    exact htree.reordered_refl
  · cases ht
    cases ht'
    exact htree.reordered_of_perm (List.reverse_perm _).symm

theorem repositoryDisk_listed : (repositoryDisk sampleEntries).sourceFiles 985 (.parse "/repo")
    sourceSuffix = .ok sampleSources := by
  have hdir : (repositoryDisk sampleEntries).isDir (.parse "/repo") = .ok true := by decide +kernel
  have hmatching : (repositoryDisk sampleEntries).matching 985
      [.everywhere, .wild (endsWith sourceSuffix)] (.parse "/repo") =
        .ok [.parse "/repo/a/l.java", .parse "/repo/a/x.java", .parse "/repo/a-b/x.java"] := by
    decide +kernel
  have hsorted : sampleSources.Pairwise fun p q => componentsLe p.parts q.parts := by decide
  rw [sourceFiles_eq_ok_iff_matching isPlainEnd_sourceSuffix, filesMatching_of_dir hdir, hmatching]
  exact congrArg Except.ok (List.mergeSort_of_pairwise hsorted)

/-- The repository is listed alike in both orders, and the runs are the same. -/
theorem sourceFiles_enumerated_sample :
    (repositoryDisk sampleEntries).tree.Sound ∧ IsPlainEnd sourceSuffix ∧
    (repositoryDisk sampleEntries).Fits (.parse "/repo") sourceSuffix ∧
    (repositoryDisk sampleEntries).Shallow 985 (.parse "/repo") ∧
    (repositoryDisk sampleEntries).Reordered (repositoryDisk sampleEntries.reverse) ∧
    (repositoryDisk sampleEntries).sourceFiles 985 (.parse "/repo") sourceSuffix =
      .ok sampleSources ∧
    (repositoryDisk sampleEntries.reverse).sourceFiles 985 (.parse "/repo") sourceSuffix =
      .ok sampleSources ∧
    ¬ (sampleSources.map Path.text).Pairwise (· < ·) ∧
    Run.chunks { Run.sampleEnvironment with disk := repositoryDisk sampleEntries.reverse }
        Run.sampleSettings =
      Run.chunks { Run.sampleEnvironment with disk := repositoryDisk sampleEntries }
        Run.sampleSettings := by
  obtain ⟨hfits, hshallow⟩ := (exists_sourceFiles_iff repositoryDisk_sound
    isPlainEnd_sourceSuffix).1 ⟨_, repositoryDisk_listed⟩
  obtain ⟨hlist, -, hruns⟩ :=
    sourceFiles_enumerated repositoryDisk_sound isPlainEnd_sourceSuffix 985 (.parse "/repo")
  obtain ⟨files, hfiles, -, -, hreordered⟩ := hlist hfits hshallow
  obtain rfl : sampleSources = files := Except.ok.inj (repositoryDisk_listed.symm.trans hfiles)
  exact ⟨repositoryDisk_sound, isPlainEnd_sourceSuffix, hfits, hshallow, repositoryDisk_reordered,
    hfiles, hreordered _ repositoryDisk_reordered, by decide,
    hruns _ { Run.sampleEnvironment with disk := repositoryDisk sampleEntries } Run.sampleSettings
      repositoryDisk_reordered rfl hfits hshallow⟩

/-! ## A root that is almost too long -/

/-- The names that lead into a directory and out of it again, `n` times, before others. -/
def detour (names : List Text) : Nat → List Text
  | 0 => names
  | n + 1 => Text.ofString "d" :: Path.upName :: detour names n

/-- The name of the only file in the directory. -/
def longName : Text := "AAAAAAAAAAAAAAAAAAAAAAAAAAAAAAAAAAA.java"

/-- A disk with a directory that holds one file. -/
def longDisk : Disk :=
  { tree := .dir [("d", .dir [(longName, .file [])])], workingDir := [] }

/-- The directory, in so many words that there is no room left for the file. -/
def longRoot : Path := ⟨.here, detour ["d"] 811⟩

theorem detour_append (names more : List Text) (n : Nat) :
    detour names n ++ more = detour (names ++ more) n := by
  induction n with
  | zero => rfl
  | succ n ih => rw [detour, detour, ← ih, List.cons_append, List.cons_append]

theorem detour_ne_nil {names : List Text} (h : names ≠ []) (n : Nat) : detour names n ≠ [] := by
  cases n with
  | zero => exact h
  | succ n => simp [detour]

/-- Each detour takes five bytes. -/
theorem length_bytes_detour {names : List Text} (h : names ≠ []) (n : Nat) :
    (Path.bytes ⟨.here, detour names n⟩).length =
      5 * n + (Path.bytes ⟨.here, names⟩).length := by
  have hbytes : ∀ {names : List Text}, names ≠ [] → Path.bytes ⟨.here, names⟩ =
      Text.fileBytes (Text.joinPieces [Path.slash] names) := fun h => by
    rw [Path.bytes, Path.text_eq (by simp [h])]
    rfl
  rw [hbytes (detour_ne_nil h n), hbytes h]
  induction n with
  | zero => simp [detour]
  | succ n ih =>
    have hstep : (Text.fileBytes "d").length = 1 ∧ (Text.fileBytes Path.upName).length = 2 ∧
        (Text.fileBytes [Path.slash]).length = 1 := by decide
    rw [detour, Text.joinPieces_cons _ (by simp), Text.joinPieces_cons _ (detour_ne_nil h n)]
    simp only [Text.fileBytes_append, List.length_append, hstep, ih]
    omega

/-- A detour leads back to where it began. -/
theorem walk_detour (links : Nat) (names : List Text) (n : Nat) :
    walk longDisk.tree links [longDisk.tree] (detour names n) =
      walk longDisk.tree links [longDisk.tree] names := by
  induction n with
  | zero => rfl
  | succ n ih =>
    rw [← ih]
    cases links <;> rfl

theorem longDisk_sound : longDisk.tree.Sound := by
  simp only [longDisk, Tree.sound_dir_iff, List.forall_mem_cons, List.not_mem_nil,
    IsEmpty.forall_iff, implies_true, Tree.sound_file, and_true, Fields.names, List.map_cons,
    List.map_nil]
  and_intros <;> decide

theorem find_longRoot : longDisk.find longRoot = .ok (.dir [(longName, .file [])]) := by
  have hnames : ∀ {P : Text → Prop}, P "d" → P Path.upName →
      ∀ n, ∀ name ∈ detour ["d"] n, P name := by
    intro P hd hup n
    induction n with
    | zero => simpa [detour] using hd
    | succ n ih => exact List.forall_mem_cons.2 ⟨hd, List.forall_mem_cons.2 ⟨hup, ih⟩⟩
  refine find_eq_ok_iff.2 ⟨?_, hasNul_eq_false_iff.2 (hnames (by decide) (by decide) 811), ?_, ?_⟩
  · rw [Path.hasFileBytes_text, List.all_eq_true]
    exact hnames (by decide) (by decide) 811
  · rw [longRoot, length_bytes_detour (by simp)]
    decide
  · exact walk_detour maxLinks ["d"] 811

/-- No directory lies below the root. -/
theorem shallow_longRoot (room : Nat) : longDisk.Shallow room longRoot := by
  intro t names es ht hdir
  obtain rfl := Except.ok.inj (ht.symm.trans find_longRoot)
  cases names with
  | nil => exact Nat.zero_le _
  | cons name names =>
    obtain ⟨child, hchild, hrest⟩ := Tree.reach?_cons_eq_some_iff.1 hdir
    obtain ⟨-, rfl⟩ : _ ∧ child = .file [] := by
      simpa [Tree.entries, Fields.get?, eq_comm] using hchild
    obtain ⟨-, hfile⟩ | ⟨es, hes⟩ := Tree.reach?_eq_some hrest
    · cases hfile
    · cases hes

/-- A file is not listed, and no other is either, because its path is too long to be looked at. -/
theorem long_path_unlisted :
    longDisk.tree.Sound ∧ IsPlainEnd sourceSuffix ∧
    longDisk.IsSource longRoot sourceSuffix (longRoot.under [longName]) ∧
    ∃ q, longDisk.sourceFiles 985 longRoot sourceSuffix = .error (.stray (.pathTooLong q)) := by
  have hreach : (Tree.dir [(longName, .file [])]).reach? ([] ++ [longName]) = some (.file []) := rfl
  have hend : sourceSuffix <:+ longName := by decide
  have hsize : maxPathBytes < (longRoot.under [longName]).bytes.length := by
    rw [longRoot, Path.under, detour_append, length_bytes_detour (by simp)]
    decide
  have hfind := find_under find_longRoot (sound_of_find longDisk_sound find_longRoot) hreach
    (by simp)
  rw [List.nil_append, if_pos hsize] at hfind
  have hunfit : ¬ longDisk.Fits longRoot sourceSuffix := fun hfits =>
    hfits _ (.entry find_longRoot hreach hend) hfind
  refine ⟨longDisk_sound, isPlainEnd_sourceSuffix,
    ⟨_, [], longName, .file [], find_longRoot, hreach, rfl, hend, trivial⟩, ?_⟩
  have hunlisted : ¬ (longDisk.Fits longRoot sourceSuffix ∧ longDisk.Shallow 985 longRoot) :=
    fun h => hunfit h.1
  obtain ⟨p, -, -, hp⟩ | ⟨hdeep, -⟩ :=
    sourceFiles_error longDisk_sound isPlainEnd_sourceSuffix hunlisted
  · exact ⟨p, hp⟩
  · exact absurd (shallow_longRoot 985) hdeep

end SymbolAtlas
