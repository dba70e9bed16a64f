import SymbolAtlas.Disk.Resolve
import SymbolAtlas.Proofs.Disk.Trees
import SymbolAtlas.Proofs.Text.Order

/-!
# Enumerations of a directory

A directory is enumerated in some order, which says nothing about what is stored in it. Two disks
that hold the same, each directory enumerated in any order, find the same under every path, read the
same texts and resolve paths alike; only a list of entries that is not put in order can differ.

* `Tree.Reordered` — trees that hold the same, with `Tree.Sound.reordered_of_perm`;
* `Disk.Reordered` — disks that hold the same;
* `Disk.Reordered.find` — what a path names on either of them;
* `Disk.Reordered.resolve` — the resolved form of a path.
-/

namespace SymbolAtlas

namespace Tree

variable {t t' : Tree}

/-- The trees hold the same: directories list the same names in some order, and what stands under
a name holds the same. -/
inductive Reordered : Tree → Tree → Prop
  | file (bytes : List UInt8) : Reordered (.file bytes) (.file bytes)
  | link (target : Text) : Reordered (.link target) (.link target)
  | dir {es es' : Fields Text Tree} (names : (Fields.names es).Perm (Fields.names es'))
      (entries : ∀ name t t', Fields.get? es name = some t → Fields.get? es' name = some t' →
        Reordered t t') : Reordered (.dir es) (.dir es')

theorem Sound.reordered_refl (h : t.Sound) : t.Reordered t := by
  induction h with
  | file bytes => exact .file bytes
  | link target => exact .link target
  | dir names distinct entries ih =>
    refine .dir (.refl _) fun name t t' ht ht' => ?_
    obtain rfl := Option.some.inj (ht.symm.trans ht')
    exact ih _ ((Fields.get?_eq_some_iff distinct).1 ht)

/-- **A directory holds the same in whatever order its entries are listed.** -/
theorem Sound.reordered_of_perm {es es' : Fields Text Tree} (h : (Tree.dir es).Sound)
    (hes : es.Perm es') : (Tree.dir es).Reordered (.dir es') := by
  have hnames : (Fields.names es).Perm (Fields.names es') := hes.map Prod.fst
  refine .dir hnames fun name t t' ht ht' => ?_
  cases h with
  | dir _ distinct entries =>
    have hmem := (Fields.get?_eq_some_iff (hnames.nodup_iff.1 distinct)).1 ht'
    have hsame := (Fields.get?_eq_some_iff distinct).2 (hes.mem_iff.2 hmem)
    obtain rfl := Option.some.inj (ht.symm.trans hsame)
    exact (entries _ ((Fields.get?_eq_some_iff distinct).1 ht)).reordered_refl

namespace Reordered

theorem symm (h : t.Reordered t') : t'.Reordered t := by
  induction h with
  | file bytes => exact .file bytes
  | link target => exact .link target
  | dir names entries ih => exact .dir names.symm fun name t' t ht' ht => ih name t t' ht ht'

/-- What is listed under a name. -/
theorem entry (h : t.Reordered t') (name : Text) :
    Option.Rel Reordered (Fields.get? t.entries name) (Fields.get? t'.entries name) := by
  cases h with
  | file bytes => exact .none
  | link target => exact .none
  | @dir es es' names entries =>
    change Option.Rel Reordered (Fields.get? es name) (Fields.get? es' name)
    cases hname : Fields.get? es name with
    | none =>
      have hnot := Fields.get?_eq_none_iff.1 hname
      rw [Fields.get?_eq_none_iff.2 (mt names.mem_iff.2 hnot)]
      exact .none
    | some t =>
      cases hname' : Fields.get? es' name with
      | none =>
        have hnot := Fields.get?_eq_none_iff.1 hname'
        rw [Fields.get?_eq_none_iff.2 (mt names.mem_iff.1 hnot)] at hname
        cases hname
      | some t' => exact .some (entries name t t' hname hname')

/-- What names lead to. -/
theorem reach (h : t.Reordered t') (names : List Text) :
    Option.Rel Reordered (t.reach? names) (t'.reach? names) := by
  induction names generalizing t t' with
  | nil => exact .some h
  | cons name names ih =>
    have hentry := h.entry name
    rw [reach?, reach?]
    generalize Fields.get? t.entries name = child at hentry ⊢
    generalize Fields.get? t'.entries name = child' at hentry ⊢
    cases hentry with
    | none => exact .none
    | some hchild => exact ih hchild

theorem reach_some (h : t.Reordered t') {names : List Text} {e : Tree}
    (he : t.reach? names = some e) : ∃ e', t'.reach? names = some e' ∧ e.Reordered e' := by
  have hrel := h.reach names
  rw [he] at hrel
  cases he' : t'.reach? names with
  | none => simp [he'] at hrel
  | some e' =>
    rw [he', Option.rel_some_some] at hrel
    exact ⟨e', rfl, hrel⟩

theorem sound (h : t.Reordered t') (ht : t.Sound) : t'.Sound := by
  induction h with
  | file bytes => exact .file bytes
  | link target => exact .link target
  | @dir es es' names entries ih =>
    have hdir := ht
    cases ht with
    | dir hnames distinct hentries =>
      have distinct' := names.nodup_iff.1 distinct
      have hentry : ∀ e ∈ es', IsEntryName e.1 ∧ e.2.Sound := by
        rintro ⟨name, t'⟩ hmem
        have hlisted : name ∈ Fields.names es := names.mem_iff.2 (List.mem_map_of_mem hmem)
        obtain ⟨⟨_, t⟩, ht, rfl⟩ := List.mem_map.1 hlisted
        have hget := (Fields.get?_eq_some_iff distinct).2 ht
        obtain ⟨hname, hsound⟩ := hdir.entry hget
        exact ⟨hname, ih _ _ _ hget ((Fields.get?_eq_some_iff distinct').2 hmem) hsound⟩
      exact .dir (fun e he => (hentry e he).1) distinct' fun e he => (hentry e he).2

end Reordered

end Tree

namespace Disk

variable {d d' : Disk} {root root' : Tree} {place place' : List Tree}

/-- The disks hold the same, and relative paths start from the same directory. -/
structure Reordered (d d' : Disk) : Prop where
  tree : d.tree.Reordered d'.tree
  workingDir : d'.workingDir = d.workingDir

/-- Nothing is found for the same reason, or what is found holds the same. -/
def FoundAlike (r r' : Except AccessError Tree) : Prop :=
  (∃ e, r = .error e ∧ r' = .error e) ∨ ∃ t t', r = .ok t ∧ r' = .ok t' ∧ t.Reordered t'

theorem FoundAlike.error (e : AccessError) : FoundAlike (.error e) (.error e) :=
  .inl ⟨e, rfl, rfl⟩

theorem FoundAlike.ok {t t' : Tree} (h : t.Reordered t') : FoundAlike (.ok t) (.ok t') :=
  .inr ⟨t, t', rfl, rfl, h⟩

/-- The steps do the same, from places that hold the same. -/
inductive Step.Alike : Step → Step → Prop
  | fails (e : AccessError) : Step.Alike (.fails e) (.fails e)
  | follows (target : Text) : Step.Alike (.follows target) (.follows target)
  | goes {place place' : List Tree} (h : List.Forall₂ Tree.Reordered place place') :
      Step.Alike (.goes place) (.goes place')

/-- A name does the same at places that hold the same. -/
theorem stepFrom_alike (h : List.Forall₂ Tree.Reordered place place') (name : Text) :
    (stepFrom place name).Alike (stepFrom place' name) := by
  cases h with
  | nil => exact .fails _
  | @cons here here' up up' hhere hup =>
    have hplace : List.Forall₂ Tree.Reordered (here :: up) (here' :: up') := .cons hhere hup
    cases hhere with
    | file bytes => exact .fails _
    | link target => exact .fails _
    | @dir es es' names entries =>
      have hentry : Option.Rel Tree.Reordered (Fields.get? es name.listed)
          (Fields.get? es' name.listed) :=
        (Tree.Reordered.dir names entries).entry name.listed
      rw [stepFrom, stepFrom]
      by_cases hdot : name = Path.hereName
      · simp only [if_pos hdot]
        exact .goes hplace
      by_cases hdots : name = Path.upName
      · -- the root directory is its own parent
        simp only [if_neg hdot, if_pos hdots]
        cases hup with
        | nil => exact .goes hplace
        | cons h hs => exact .goes (.cons h hs)
      by_cases hlong : maxNameBytes < name.fileBytes.length
      · simp only [if_neg hdot, if_neg hdots, if_pos hlong]
        exact .fails _
      simp only [if_neg hdot, if_neg hdots, if_neg hlong]
      generalize Fields.get? es name.listed = child at hentry ⊢
      generalize Fields.get? es' name.listed = child' at hentry ⊢
      cases hentry with
      | none => exact .fails _
      | some hchild =>
        cases hchild with
        | file bytes => exact .goes (.cons (.file bytes) hplace)
        | link target => exact .follows target
        | dir names entries => exact .goes (.cons (.dir names entries) hplace)

/-- The walks find the same from places that hold the same. -/
def WalksAlike (onward onward' : List Tree → List Text → Except AccessError Tree) : Prop :=
  ∀ place place' names, List.Forall₂ Tree.Reordered place place' →
    FoundAlike (onward place names) (onward' place' names)

theorem walkWith_alike
    {onLink onLink' : List Tree → Text → List Text → Except AccessError Tree}
    (honLink : ∀ target, WalksAlike (fun place rest => onLink place target rest)
      fun place rest => onLink' place target rest) :
    WalksAlike (walkWith onLink) (walkWith onLink') := by
  intro place place' names h
  induction names generalizing place place' with
  | nil =>
    cases h with
    | nil => exact .error _
    | cons hhere _ => exact .ok hhere
  | cons name names ih =>
    have hstep := stepFrom_alike h name
    rw [walkWith_cons, walkWith_cons]
    generalize stepFrom place name = step at hstep ⊢
    generalize stepFrom place' name = step' at hstep ⊢
    cases hstep with
    | fails e => exact .error e
    | follows target => exact honLink target place place' names h
    | goes hplace => exact ih _ _ hplace

theorem walk_alike (h : root.Reordered root') (links : Nat) :
    WalksAlike (walk root links) (walk root' links) := by
  induction links with
  | zero => exact walkWith_alike fun target place place' names _ => .error _
  | succ links ih =>
    refine walkWith_alike fun target place place' names hplace => ih _ _ _ ?_
    split
    · exact .cons h .nil
    · exact hplace

namespace Reordered

theorem symm (h : d.Reordered d') : d'.Reordered d :=
  ⟨h.tree.symm, h.workingDir.symm⟩

/-- **A path names the same on both disks.** -/
theorem find (h : d.Reordered d') (p : Path) : FoundAlike (d.find p) (d'.find p) := by
  have hparts : d'.absoluteParts p = d.absoluteParts p := by
    simp only [absoluteParts, h.workingDir]
  rw [Disk.find, Disk.find, hparts]
  split
  · exact .error _
  split
  · exact .error _
  split
  · exact .error _
  · exact walk_alike h.tree maxLinks _ _ _ (.cons h.tree .nil)

theorem find_ok (h : d.Reordered d') {p : Path} {t : Tree} (ht : d.find p = .ok t) :
    ∃ t', d'.find p = .ok t' ∧ t.Reordered t' := by
  obtain ⟨e, he, -⟩ | ⟨u, t', hu, ht', hrel⟩ := h.find p
  · cases ht.symm.trans he
  · obtain rfl := Except.ok.inj (ht.symm.trans hu)
    exact ⟨t', ht', hrel⟩

theorem find_error_iff (h : d.Reordered d') {p : Path} {e : AccessError} :
    d'.find p = .error e ↔ d.find p = .error e := by
  obtain ⟨e', he, he'⟩ | ⟨t, t', ht, ht', -⟩ := h.find p
  · rw [he, he']
  · simp [ht, ht']

/-! ## What is asked of a disk -/

theorem look (h : d.Reordered d') (p : Path) :
    (∃ e, d.look? p = .error e ∧ d'.look? p = .error e) ∨
      ∃ t t', d.look? p = .ok t ∧ d'.look? p = .ok t' ∧ Option.Rel Tree.Reordered t t' := by
  rw [Disk.look?, Disk.look?]
  obtain ⟨e, he, he'⟩ | ⟨t, t', ht, ht', hrel⟩ := h.find p
  · rw [he, he']
    cases e with
    | nameTooLong => exact .inl ⟨_, rfl, rfl⟩
    | _ => exact .inr ⟨_, _, rfl, rfl, .none⟩
  · rw [ht, ht']
    exact .inr ⟨_, _, rfl, rfl, .some hrel⟩

theorem isFile (h : d.Reordered d') (p : Path) : d'.isFile p = d.isFile p := by
  rw [Disk.isFile, Disk.isFile]
  obtain ⟨e, he, he'⟩ | ⟨t, t', ht, ht', hrel⟩ := h.look p
  · rw [he, he']
  · rw [ht, ht']
    cases hrel with
    | none => rfl
    | some hrel => cases hrel <;> rfl

theorem isDir (h : d.Reordered d') (p : Path) : d'.isDir p = d.isDir p := by
  rw [Disk.isDir, Disk.isDir]
  obtain ⟨e, he, he'⟩ | ⟨t, t', ht, ht', hrel⟩ := h.look p
  · rw [he, he']
  · rw [ht, ht']
    cases hrel with
    | none => rfl
    | some hrel => cases hrel <;> rfl

theorem filesAmong (h : d.Reordered d') (ps : List Path) : d'.filesAmong ps = d.filesAmong ps := by
  induction ps with
  | nil => rfl
  | cons p ps ih => rw [Disk.filesAmong, Disk.filesAmong, h.isFile, ih]

theorem readText (h : d.Reordered d') (p : Path) : d'.readText p = d.readText p := by
  have hbytes : d'.readBytes p = d.readBytes p := by
    rw [Disk.readBytes, Disk.readBytes]
    obtain ⟨e, he, he'⟩ | ⟨t, t', ht, ht', hrel⟩ := h.find p
    · rw [he, he']
    · rw [ht, ht']
      cases hrel <;> rfl
  rw [Disk.readText, Disk.readText, hbytes]

/-- The names in a directory are the same once they are put in order. -/
theorem listNames (h : d.Reordered d') (p : Path) : d'.listNames p = d.listNames p := by
  rw [Disk.listNames, Disk.listNames, Disk.entriesOf, Disk.entriesOf]
  obtain ⟨e, he, he'⟩ | ⟨t, t', ht, ht', hrel⟩ := h.look p
  · rw [he, he']
  · rw [ht, ht']
    have hperm : (Fields.names (t'.elim [] Tree.entries)).Perm
        (Fields.names (t.elim [] Tree.entries)) := by
      cases hrel with
      | none => exact .refl _
      | some hrel =>
        cases hrel with
        | file bytes => exact .refl _
        | link target => exact .refl _
        | dir names _ => exact names.symm
    exact congrArg Except.ok (Text.mergeSort_eq_of_perm (fun _ _ => Text.le_iff) hperm)

theorem linkAt (h : d.Reordered d') : d'.linkAt = d.linkAt := by
  funext p name
  rw [Disk.linkAt, Disk.linkAt]
  obtain ⟨e, he, he'⟩ | ⟨t, t', ht, ht', hrel⟩ := h.find p
  · rw [he, he']
  · rw [ht, ht']
    have hentry := hrel.entry name.listed
    dsimp only [Tree.entry?]
    generalize Fields.get? t.entries name.listed = child at hentry ⊢
    generalize Fields.get? t'.entries name.listed = child' at hentry ⊢
    cases hentry with
    | none => rfl
    | some hchild => cases hchild <;> rfl

theorem resolveWith (h : d.Reordered d')
    {onLink onLink' : Met → Path → Text → Except ResolveError (Landing × Met)}
    (honLink : onLink' = onLink) : d'.resolveWith onLink' = d.resolveWith onLink := by
  subst honLink
  funext met here names
  induction names generalizing met here with
  | nil => rfl
  | cons name names ih =>
    simp only [Disk.resolveWith, h.linkAt, ih]

theorem resolveText (h : d.Reordered d') (depth : Nat) :
    d'.resolveText depth = d.resolveText depth := by
  induction depth with
  | zero => rfl
  | succ depth ih =>
    funext met here text
    rw [Disk.resolveText, Disk.resolveText, h.resolveWith ih]

/-- **A path is resolved alike on both disks.** -/
theorem resolve (h : d.Reordered d') (p : Path) : d'.resolve p = d.resolve p := by
  have habsolute : d'.absolute = d.absolute := by
    funext q
    simp only [absolute, h.workingDir]
  rw [Disk.resolve, Disk.resolve, h.resolveText, habsolute]
  refine bind_congr fun ⟨landing, met⟩ => ?_
  dsimp only
  generalize (d.absolute _).collapse = resolved
  obtain ⟨e, he, he'⟩ | ⟨t, t', ht, ht', -⟩ := h.find resolved
  · rw [he, he']
  · rw [ht, ht']

end Reordered

end Disk

end SymbolAtlas
