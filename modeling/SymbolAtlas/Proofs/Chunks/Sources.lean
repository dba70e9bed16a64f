import SymbolAtlas.Chunks.Sources
import SymbolAtlas.Proofs.Disk.Enumerations
import SymbolAtlas.Proofs.Disk.Paths

/-!
# The list of source files

The files of a repository are found by a pattern: at every directory below the root, those of its
entries with the right end that are files. They are put in the order of their components, so the
list holds each source file once, in an order that does not depend on how directories are
enumerated. There is a list just if no path that is looked at is too long and no directory lies too
far below the root.

* `Wildcard.covers_end` — what a pattern without wildcards but the first covers;
* `Disk.IsSource` — the paths that should be listed;
* `Disk.Fits`, `Disk.Shallow` — all paths can be looked at, and all directories gone to;
* `Disk.Hinders` — what ends a search early;
* `Disk.mem_matching`, `Disk.hinders_of_matching` — what a search finds, and why it does not;
* `Disk.sourceFiles_eq_ok_iff`, `Disk.sourceFiles_error` — when there is a list, and which one, with
  `Disk.Reordered.sourceFiles` for other enumerations.
-/

namespace SymbolAtlas

/-! ## The pattern -/

namespace Wildcard

/-- The code point stands for itself in a pattern for names. -/
def IsPlain (c : CodePoint) : Prop :=
  c ≠ .char '/' ∧ c ≠ .char '*' ∧ c ≠ .char '?' ∧ c ≠ .char '['

theorem mem_ends {cs ds : Text} : ds ∈ ends cs ↔ ds <:+ cs := by
  induction cs with
  | nil => simp [ends]
  | cons c cs ih => rw [ends, List.mem_cons, ih, List.suffix_cons_iff]

theorem covers_exactly {cs name : Text} : covers (cs.map .exactly) name = true ↔ cs = name := by
  induction cs generalizing name with
  | nil => cases name <;> simp [covers]
  | cons c cs ih =>
    cases name with
    | nil => simp [covers]
    | cons d name => simp [covers, ih]

/-- A star and plain code points after it cover the names with this end. -/
theorem covers_end {cs name : Text} :
    covers (.star :: cs.map .exactly) name = true ↔ cs <:+ name := by
  rw [covers, List.any_eq_true]
  constructor
  · rintro ⟨ds, hds, hcovers⟩
    rw [covers_exactly.1 hcovers]
    exact mem_ends.1 hds
  · intro h
    exact ⟨cs, mem_ends.2 h, covers_exactly.2 rfl⟩

theorem parseFrom_plain {cs : Text} (h : ∀ c ∈ cs, IsPlain c) {fuel : Nat}
    (hfuel : cs.length ≤ fuel) : parseFrom fuel cs = cs.map .exactly := by
  induction cs generalizing fuel with
  | nil => cases fuel <;> rfl
  | cons c cs ih =>
    obtain ⟨⟨-, hstar, hany, hbracket⟩, hcs⟩ := List.forall_mem_cons.1 h
    obtain ⟨fuel, rfl⟩ : ∃ k, fuel = k + 1 := ⟨fuel - 1, by simp at hfuel; omega⟩
    have hrest : parseFrom fuel cs = cs.map .exactly := ih hcs (by simpa using hfuel)
    rw [parseFrom, hrest, List.map_cons]
    all_goals simp_all

end Wildcard

/-- Every code point of the text stands for itself in a pattern for names. -/
def IsPlainEnd (suffix : Text) : Prop :=
  ∀ c ∈ suffix, Wildcard.IsPlain c

instance (suffix : Text) : Decidable (IsPlainEnd suffix) :=
  inferInstanceAs (Decidable (∀ c ∈ suffix, _ ∧ _ ∧ _ ∧ _))

theorem isPlainEnd_sourceSuffix : IsPlainEnd sourceSuffix := by
  decide

/-- The parts of the pattern for names with an end. -/
def endsWith (suffix : Text) : List Wildcard :=
  .star :: suffix.map .exactly

/-- The pattern for names with a plain end. -/
theorem sourcePattern_plain {suffix : Text} (h : IsPlainEnd suffix) :
    sourcePattern suffix = some [.everywhere, .wild (endsWith suffix)] := by
  have hslash : Path.slash ∉ .char '*' :: suffix := by
    rw [List.mem_cons, not_or]
    exact ⟨by decide, fun hmem => (h _ hmem).1 rfl⟩
  have hstar : .char '*' ∉ suffix := fun hmem => (h _ hmem).2.1 rfl
  have hname : Path.IsName (.char '*' :: suffix) := ⟨by simp, by simp [Path.hereName], hslash⟩
  have hnames : ∀ name ∈ [.char '*' :: suffix], Path.IsName name := by simpa using hname
  have hcomponents : Path.components (.char '*' :: suffix) = [.char '*' :: suffix] :=
    Path.components_join_slash hnames
  have hdouble : ¬ PatternStep.parse.doubleStar <:+: .char '*' :: suffix := by
    intro hinfix
    have hcount := hinfix.sublist.count_le (.char '*')
    simp [PatternStep.parse.doubleStar, List.count_eq_zero.2 hstar] at hcount
  have hstep : PatternStep.parse (.char '*' :: suffix) = some (.wild (endsWith suffix)) := by
    have hne : ¬ .char '*' :: suffix = PatternStep.parse.doubleStar := by
      intro heq
      exact hdouble (heq ▸ List.infix_rfl)
    have htwice : Text.cutAtText PatternStep.parse.doubleStar (.char '*' :: suffix) = none :=
      (Text.cutAtText_eq_none_iff (by decide)).2 hdouble
    have hwild : Wildcard.isWild (.char '*' :: suffix) = true := by simp [Wildcard.isWild]
    have hparse : Wildcard.parse (.char '*' :: suffix) = endsWith suffix := by
      rw [Wildcard.parse, List.length_cons, Wildcard.parseFrom,
        Wildcard.parseFrom_plain h (Nat.le_refl _), endsWith]
    simp [PatternStep.parse, hne, htwice, hwild, hparse]
  have hend : (CodePoint.char '*' :: suffix).getLast? ≠ some Path.slash :=
    fun hlast => hslash (List.mem_of_getLast? hlast)
  simp [sourcePattern, PathPattern.parse, hcomponents, hstep, hend]

/-! ## The order -/

/-- The order of components is that of their lists. -/
theorem componentsLe_iff {as bs : List Text} : componentsLe as bs = true ↔ as ≤ bs := by
  rw [componentsLe]
  exact Text.lexLe_iff fun _ _ => Text.le_iff

example : componentsLe ["a", "x"] ["a-b", "x"] = true ∧ ¬ Text.le "a/x" "a-b/x" := by
  decide

/-- Paths from one root that are sorted by their components increase strictly if none is
repeated. -/
theorem pairwise_sorted (root : PathRoot) {ps : List Path} (hroot : ∀ p ∈ ps, p.root = root)
    (hps : ps.Nodup) :
    (ps.mergeSort fun p q => componentsLe p.parts q.parts).Pairwise fun p q =>
      p.parts < q.parts := by
  have hperm := List.mergeSort_perm ps fun p q => componentsLe p.parts q.parts
  have hle : (ps.mergeSort fun p q => componentsLe p.parts q.parts).Pairwise fun p q =>
      componentsLe p.parts q.parts := by
    apply List.pairwise_mergeSort
    · intro p q r hpq hqr
      exact componentsLe_iff.2 (le_trans (componentsLe_iff.1 hpq) (componentsLe_iff.1 hqr))
    · intro p q
      simpa [componentsLe_iff] using le_total p.parts q.parts
  refine (hle.and (hperm.nodup_iff.2 hps)).imp_of_mem fun {p q} hp hq ⟨hpq, hne⟩ => ?_
  refine lt_of_le_of_ne (componentsLe_iff.1 hpq) fun heq => hne ?_
  have hsame : p.root = q.root :=
    (hroot p (hperm.mem_iff.1 hp)).trans (hroot q (hperm.mem_iff.1 hq)).symm
  cases p
  cases q
  simp_all

/-- A strictly increasing list is determined by what is in it. -/
theorem eq_of_pairwise {ps qs : List Path} (hps : ps.Pairwise fun p q => p.parts < q.parts)
    (hqs : qs.Pairwise fun p q => p.parts < q.parts) (h : ∀ p, p ∈ ps ↔ p ∈ qs) : ps = qs := by
  have hnodup : ∀ {ps : List Path}, (ps.Pairwise fun p q => p.parts < q.parts) → ps.Nodup := by
    intro ps hps
    apply hps.imp
    rintro p q hlt rfl
    exact lt_irrefl _ hlt
  refine List.Perm.eq_of_pairwise (fun p q _ _ hpq hqp => ?_) hps hqs
    ((List.perm_ext_iff_of_nodup (hnodup hps) (hnodup hqs)).2 h)
  exact absurd (lt_trans hpq hqp) (lt_irrefl _)

namespace Disk

variable {d : Disk} {room : Nat} {p q root : Path} {t : Tree} {ws : List Wildcard} {suffix : Text}

/-! ## Looking -/

theorem look_of_find (h : d.find p = .ok t) : d.look? p = .ok (some t) := by
  rw [look?, h]

/-- Only a path that is too long cannot be looked at. -/
theorem look_eq_error_iff {e : PathTooLong} :
    d.look? p = .error e ↔ d.find p = .error .nameTooLong ∧ e = ⟨p⟩ := by
  rw [look?]
  cases d.find p with
  | ok t => simp
  | error found => cases found <;> simp [eq_comm]

theorem exists_look_iff : (∃ t, d.look? p = .ok t) ↔ d.find p ≠ .error .nameTooLong := by
  rw [look?]
  split <;> simp_all

theorem isFile_eq_ok_true_iff : d.isFile p = .ok true ↔ ∃ bytes, d.find p = .ok (.file bytes) := by
  rw [isFile, look?]
  cases d.find p with
  | error e => cases e <;> simp [Except.map]
  | ok t => cases t <;> simp [Except.map]

theorem isDir_eq_ok_true_iff : d.isDir p = .ok true ↔ ∃ es, d.find p = .ok (.dir es) := by
  rw [isDir, look?]
  cases d.find p with
  | error e => cases e <;> simp [Except.map]
  | ok t => cases t <;> simp [Except.map]

theorem asked_eq_ok_iff {α : Type} {m : Except PathTooLong α} {a : α} :
    asked m = .ok a ↔ m = .ok a :=
  mapError_eq_ok

theorem asked_eq_error_iff {α : Type} {m : Except PathTooLong α} {e : SearchError} :
    asked m = .error e ↔ ∃ long, m = .error long ∧ e = .tooLong long :=
  mapError_eq_error

/-- A path that can be looked at is given if it names a file. -/
theorem mem_fileAt {ps : List Path} (h : d.fileAt p = .ok ps) :
    d.find p ≠ .error .nameTooLong ∧ ∀ q, q ∈ ps ↔ q = p ∧ d.isFile q = .ok true := by
  rw [fileAt, bind_eq_ok] at h
  obtain ⟨b, hb, h⟩ := h
  rw [asked_eq_ok_iff] at hb
  refine ⟨exists_look_iff.1 (exists_map_eq_ok_iff.1 ⟨b, hb⟩), fun q => ?_⟩
  obtain rfl := Except.ok.inj h
  constructor
  · intro hq
    cases b with
    | true =>
      obtain rfl := List.mem_singleton.1 hq
      exact ⟨rfl, hb⟩
    | false => cases hq
  · rintro ⟨rfl, hfile⟩
    obtain rfl := Except.ok.inj (hb.symm.trans hfile)
    exact List.mem_singleton_self _

theorem fileAt_eq_error_iff {e : SearchError} :
    d.fileAt p = .error e ↔ d.find p = .error .nameTooLong ∧ e = .tooLong ⟨p⟩ := by
  rw [fileAt, bind_eq_error, asked_eq_error_iff, isFile]
  simp only [map_eq_error, look_eq_error_iff]
  constructor
  · rintro (⟨long, ⟨hlong, rfl⟩, rfl⟩ | ⟨b, -, h⟩)
    · exact ⟨hlong, rfl⟩
    · cases h
  · rintro ⟨hlong, rfl⟩
    exact .inl ⟨_, ⟨hlong, rfl⟩, rfl⟩

/-! ## Gathering -/

section Gather

variable {α : Type} {f : α → Except SearchError (List Path)} {as : List α} {ps : List Path}

/-- What was gathered comes from the elements, each of which gives something. -/
theorem mem_gather (h : gather f as = .ok ps) :
    (∀ a ∈ as, ∃ qs, f a = .ok qs) ∧ ∀ p, p ∈ ps ↔ ∃ a ∈ as, ∃ qs, f a = .ok qs ∧ p ∈ qs := by
  induction as generalizing ps with
  | nil =>
    cases h
    simp
  | cons a as ih =>
    simp only [gather, bind_eq_ok] at h
    obtain ⟨qs, hqs, rest, hrest, ⟨⟩⟩ := h
    obtain ⟨hall, hmem⟩ := ih hrest
    exact ⟨List.forall_mem_cons.2 ⟨⟨qs, hqs⟩, hall⟩, fun p => by simp [hmem, hqs]⟩

/-- What ends the gathering is what one of the elements gives. -/
theorem exists_of_gather_error {e : SearchError} (h : gather f as = .error e) :
    ∃ a ∈ as, f a = .error e := by
  induction as with
  | nil => cases h
  | cons a as ih =>
    simp only [gather, bind_eq_error] at h
    obtain h | ⟨qs, -, h | ⟨rest, -, h⟩⟩ := h
    · exact ⟨a, List.mem_cons_self .., h⟩
    · obtain ⟨b, hb, hfb⟩ := ih h
      exact ⟨b, List.mem_cons_of_mem _ hb, hfb⟩
    · cases h

end Gather

/-! ## Matching -/

/-- What is picked in the directory `q`: the files with covered names. -/
def picked (d : Disk) (ws : List Wildcard) (q : Path) : Except SearchError (List Path) := do
  gather (fun e => if Wildcard.covers ws e.1 then d.fileAt (q.below e.1) else .ok [])
    (← asked (d.entriesOf q))

/-- What is picked in the directory `q` below `root`, if there is room for going there. -/
def pickedAt (d : Disk) (room : Nat) (ws : List Wildcard) (root q : Path) :
    Except SearchError (List Path) := do
  let _ ← asked (d.look? q)
  within room root q (← d.picked ws q)

theorem matching_wild : d.matching room [.wild ws] = d.picked ws := by
  funext q
  rw [matching, picked]
  refine bind_congr fun es => congrArg (gather · es) (funext fun e => ?_)
  simp only [matching, asked, Except.mapError, List.isEmpty_nil, if_true]
  rfl

theorem matching_everywhere (hroot : d.find root = .ok t) :
    d.matching room [.everywhere, .wild ws] root =
      (gather (d.pickedAt room ws root) (Tree.dirsFrom root t)).map List.eraseDups := by
  have hdirs : d.dirsBelow root = .ok (Tree.dirsFrom root t) := by
    rw [dirsBelow, look_of_find hroot]
    rfl
  rw [matching, hdirs, matching_wild]
  change gather (d.pickedAt room ws root) (Tree.dirsFrom root t) >>=
    (fun found => .ok found.eraseDups) = _
  cases gather (d.pickedAt room ws root) (Tree.dirsFrom root t) <;> rfl

theorem nodup_matching {ps : List Path} (hroot : d.find root = .ok t)
    (h : d.matching room [.everywhere, .wild ws] root = .ok ps) : ps.Nodup := by
  rw [matching_everywhere hroot, map_eq_ok] at h
  obtain ⟨found, -, rfl⟩ := h
  exact Fields.nodup_eraseDups found

theorem within_eq_ok_iff {names : List Text} {found ps : List Path} :
    within room root (root.under names) found = .ok ps ↔ names.length ≤ room ∧ found = ps := by
  have hlength : (root.under names).parts.length - root.parts.length = names.length := by
    simp [Path.under]
  rw [within, hlength]
  split <;> simp <;> omega

theorem within_eq_error_iff {names : List Text} {found : List Path} {e : SearchError} :
    within room root (root.under names) found = .error e ↔
      room < names.length ∧ e = .tooDeep := by
  have hlength : (root.under names).parts.length - root.parts.length = names.length := by
    simp [Path.under]
  rw [within, hlength]
  split <;> simp_all [eq_comm]

/-! ## What is searched for -/

/-- What stands at the path is a file, or a link to one. -/
def HoldsFile (d : Disk) (p : Path) : Tree → Prop
  | .file _ => True
  | .link _ => ∃ bytes, d.find p = .ok (.file bytes)
  | .dir _ => False

/-- The path is that of a source file: of an entry below the root, reached without following a
link, whose name has the end and which is a file or a link to one. -/
def IsSource (d : Disk) (root : Path) (suffix : Text) (p : Path) : Prop :=
  ∃ t names name e, d.find root = .ok t ∧ t.reach? (names ++ [name]) = some e ∧
    p = root.under (names ++ [name]) ∧ suffix <:+ name ∧ d.HoldsFile p e

/-- The paths that are looked at in the search for source files: the root, the directories below it
and the entries whose names have the end. -/
inductive LooksAt (d : Disk) (root : Path) (suffix : Text) : Path → Prop
  | root : LooksAt d root suffix root
  | dir {t : Tree} {names : List Text} {es : Fields Text Tree} (start : d.find root = .ok t)
      (reached : t.reach? names = some (.dir es)) : LooksAt d root suffix (root.under names)
  | entry {t e : Tree} {names : List Text} {name : Text} (start : d.find root = .ok t)
      (reached : t.reach? (names ++ [name]) = some e) (ending : suffix <:+ name) :
      LooksAt d root suffix (root.under (names ++ [name]))

/-- No path that is looked at is too long, nor is one that it leads to through links. -/
def Fits (d : Disk) (root : Path) (suffix : Text) : Prop :=
  ∀ p, d.LooksAt root suffix p → d.find p ≠ .error .nameTooLong

/-- There is room for going to every directory below the root. -/
def Shallow (d : Disk) (room : Nat) (root : Path) : Prop :=
  ∀ t names es, d.find root = .ok t → t.reach? names = some (.dir es) → names.length ≤ room

/-- What ends a search: a path that is looked at and too long, or a directory too far down. -/
inductive Hinders (d : Disk) (room : Nat) (root : Path) (suffix : Text) : SearchError → Prop
  | tooLong {p : Path} (looked : d.LooksAt root suffix p)
      (long : d.find p = .error .nameTooLong) : Hinders d room root suffix (.tooLong ⟨p⟩)
  | tooDeep (deep : ¬ d.Shallow room root) : Hinders d room root suffix .tooDeep

/-- Nothing ends a search where all paths fit and no directory is too far down. -/
theorem not_hinders {e : SearchError} (hfits : d.Fits root suffix)
    (hshallow : d.Shallow room root) :
    ¬ d.Hinders room root suffix e := by
  rintro (⟨looked, long⟩ | deep)
  · exact hfits _ looked long
  · exact deep hshallow

/-! ## What is found -/

section Sound

variable {names : List Text} {es : Fields Text Tree} (hroot : d.find root = .ok t) (ht : t.Sound)

include hroot ht

/-- What is found at a place that can be looked at. -/
theorem find_place {e : Tree} (he : t.reach? names = some e) (hlink : ∀ target, e ≠ .link target)
    (hlook : d.find (root.under names) ≠ .error .nameTooLong) :
    d.find (root.under names) = .ok e := by
  have hfind := find_under hroot ht he hlink
  split at hfind
  · exact absurd hfind hlook
  · exact hfind

/-- The files of one directory: what was found there, and that all of it can be looked at. -/
theorem pickedAt_ok (hdir : t.reach? names = some (.dir es)) {ps : List Path}
    (h : d.pickedAt room ws root (root.under names) = .ok ps) :
    d.find (root.under names) ≠ .error .nameTooLong ∧ names.length ≤ room ∧
      (∀ e ∈ es, Wildcard.covers ws e.1 = true →
        d.find (root.under (names ++ [e.1])) ≠ .error .nameTooLong) ∧
      ∀ p, p ∈ ps ↔ ∃ e ∈ es, Wildcard.covers ws e.1 = true ∧
        p = root.under (names ++ [e.1]) ∧ d.isFile p = .ok true := by
  simp only [pickedAt, bind_eq_ok, asked_eq_ok_iff, within_eq_ok_iff] at h
  obtain ⟨found, hlook, ps', hpicked, hroom, rfl⟩ := h
  have hlong := exists_look_iff.1 ⟨found, hlook⟩
  have hentries : d.entriesOf (root.under names) = .ok es := by
    rw [entriesOf, look_of_find (find_place hroot ht hdir (by simp) hlong)]
    rfl
  simp only [picked, hentries, bind_eq_ok, asked_eq_ok_iff, Except.ok.injEq, exists_eq_left',
    Path.below_under] at hpicked
  obtain ⟨hall, hmem⟩ := mem_gather hpicked
  refine ⟨hlong, hroom, fun e he hcovers => ?_, fun p => (hmem p).trans ?_⟩
  · obtain ⟨qs, hqs⟩ := hall e he
    rw [if_pos hcovers] at hqs
    exact (mem_fileAt hqs).1
  · refine exists_congr fun e => and_congr_right fun he => ?_
    obtain ⟨qs, hqs⟩ := hall e he
    by_cases hcovers : Wildcard.covers ws e.1 = true
    · simp only [if_pos hcovers] at hqs ⊢
      simp [hqs, (mem_fileAt hqs).2, hcovers]
    · simp [hcovers]

/-- What ends the search in one directory. -/
theorem hinders_of_pickedAt (hdir : t.reach? names = some (.dir es)) {e : SearchError}
    (h : d.pickedAt room (endsWith suffix) root (root.under names) = .error e) :
    d.Hinders room root suffix e := by
  have hlong : ∀ {long : PathTooLong}, d.look? (root.under names) = .error long →
      d.Hinders room root suffix (.tooLong long) := by
    intro long hlook
    obtain ⟨hfind, rfl⟩ := look_eq_error_iff.1 hlook
    exact .tooLong (.dir hroot hdir) hfind
  simp only [pickedAt, bind_eq_error, asked_eq_error_iff, asked_eq_ok_iff, within_eq_error_iff] at h
  obtain ⟨long, hlook, rfl⟩ | ⟨found, hlook, hpicked | ⟨ps, -, hroom, rfl⟩⟩ := h
  · exact hlong hlook
  · simp only [picked, bind_eq_error, asked_eq_error_iff, asked_eq_ok_iff, entriesOf, map_eq_error]
      at hpicked
    obtain ⟨long, hlook', rfl⟩ | ⟨entries, hentries, hgather⟩ := hpicked
    · exact hlong hlook'
    · obtain ⟨entry, hentry, hfile⟩ := exists_of_gather_error hgather
      have hfind := find_place hroot ht hdir (by simp) (exists_look_iff.1 ⟨found, hlook⟩)
      rw [look_of_find hfind] at hentries
      obtain rfl := Except.ok.inj hentries
      split at hfile
      · next hcovers =>
        obtain ⟨hfind', rfl⟩ := fileAt_eq_error_iff.1 hfile
        have hget := (Fields.get?_eq_some_iff (Tree.sound_dir_iff.1 (ht.reach hdir).2).2.1).2 hentry
        rw [Path.below_under] at hfind' ⊢
        exact .tooLong (.entry hroot (Tree.reach?_concat_eq_some_iff.2 ⟨es, hdir, hget⟩)
          (Wildcard.covers_end.1 hcovers)) hfind'
      · cases hfile
  · exact .tooDeep fun hshallow => Nat.not_lt.2 (hshallow t names es hroot hdir) hroom

/-- **The matches are the files among the entries with covered names, at any depth**, where there
are matches at all. -/
theorem mem_matching {ps : List Path}
    (h : d.matching room [.everywhere, .wild (endsWith suffix)] root = .ok ps) :
    d.Fits root suffix ∧ d.Shallow room root ∧ ∀ p, p ∈ ps ↔ ∃ names name e,
      t.reach? (names ++ [name]) = some e ∧ suffix <:+ name ∧
        p = root.under (names ++ [name]) ∧ d.isFile p = .ok true := by
  rw [matching_everywhere hroot, map_eq_ok] at h
  obtain ⟨found, hfound, rfl⟩ := h
  obtain ⟨hall, hmem⟩ := mem_gather hfound
  have hdirs : ∀ {names es}, t.reach? names = some (.dir es) → ∃ ps,
      d.pickedAt room (endsWith suffix) root (root.under names) = .ok ps :=
    fun hdir => hall _ ((Tree.mem_dirsFrom ht).2 ⟨_, _, hdir, rfl⟩)
  -- entries are told from their directory and their name
  have hentry : ∀ {names name es e}, t.reach? names = some (.dir es) →
      (Fields.get? es name = some e ↔ (name, e) ∈ es) := fun hdir =>
    Fields.get?_eq_some_iff (Tree.sound_dir_iff.1 (ht.reach hdir).2).2.1
  refine ⟨fun p hp => ?_, fun t' names es ht' hdir => ?_, fun p => ?_⟩
  · cases hp with
    | root => simp [hroot]
    | dir start reached =>
      obtain rfl := Except.ok.inj (hroot.symm.trans start)
      obtain ⟨ps, hps⟩ := hdirs reached
      exact (pickedAt_ok hroot ht reached hps).1
    | entry start reached ending =>
      obtain rfl := Except.ok.inj (hroot.symm.trans start)
      obtain ⟨es, hdir, hget⟩ := Tree.reach?_concat_eq_some_iff.1 reached
      obtain ⟨ps, hps⟩ := hdirs hdir
      exact (pickedAt_ok hroot ht hdir hps).2.2.1 _ ((hentry hdir).1 hget)
        (Wildcard.covers_end.2 ending)
  · obtain rfl := Except.ok.inj (hroot.symm.trans ht')
    obtain ⟨ps, hps⟩ := hdirs hdir
    exact (pickedAt_ok hroot ht hdir hps).2.1
  · rw [List.mem_eraseDups, hmem]
    constructor
    · rintro ⟨q, hq, qs, hqs, hp⟩
      obtain ⟨names, es, hdir, rfl⟩ := (Tree.mem_dirsFrom ht).1 hq
      obtain ⟨⟨name, e⟩, he, hcovers, hp, hfile⟩ :=
        ((pickedAt_ok hroot ht hdir hqs).2.2.2 p).1 hp
      exact ⟨names, name, e, Tree.reach?_concat_eq_some_iff.2 ⟨es, hdir, (hentry hdir).2 he⟩,
        Wildcard.covers_end.1 hcovers, hp, hfile⟩
    · rintro ⟨names, name, e, hreach, hend, hp, hfile⟩
      obtain ⟨es, hdir, hget⟩ := Tree.reach?_concat_eq_some_iff.1 hreach
      obtain ⟨ps, hps⟩ := hdirs hdir
      exact ⟨_, (Tree.mem_dirsFrom ht).2 ⟨names, es, hdir, rfl⟩, ps, hps,
        ((pickedAt_ok hroot ht hdir hps).2.2.2 p).2
          ⟨(name, e), (hentry hdir).1 hget, Wildcard.covers_end.2 hend, hp, hfile⟩⟩

/-- What ends the search. -/
theorem hinders_of_matching {e : SearchError}
    (h : d.matching room [.everywhere, .wild (endsWith suffix)] root = .error e) :
    d.Hinders room root suffix e := by
  rw [matching_everywhere hroot, map_eq_error] at h
  obtain ⟨q, hq, hpicked⟩ := exists_of_gather_error h
  obtain ⟨names, es, hdir, rfl⟩ := (Tree.mem_dirsFrom ht).1 hq
  exact hinders_of_pickedAt hroot ht hdir hpicked

/-- A match is listed just if it is a source file. -/
theorem isFile_iff_holdsFile {name : Text} {e : Tree} (he : t.reach? (names ++ [name]) = some e)
    (hlook : d.find (root.under (names ++ [name])) ≠ .error .nameTooLong) :
    d.isFile (root.under (names ++ [name])) = .ok true ↔
      d.HoldsFile (root.under (names ++ [name])) e := by
  rw [isFile_eq_ok_true_iff]
  cases e with
  | file bytes => exact iff_of_true ⟨bytes, find_place hroot ht he (by simp) hlook⟩ trivial
  | link target => rfl
  | dir es' =>
    refine iff_of_false ?_ not_false
    rintro ⟨bytes, hfile⟩
    cases hfile.symm.trans (find_place hroot ht he (by simp) hlook)

end Sound

/-! ## The list -/

variable {files : List Path}

/-- Only the place itself is reached from what is no directory. -/
theorem reach_of_not_dir (hroot : d.isDir root ≠ .ok true) (ht : d.find root = .ok t)
    {names : List Text} {e : Tree} (he : t.reach? names = some e) :
    names = [] ∧ ∀ es, e ≠ .dir es := by
  rw [Ne, isDir_eq_ok_true_iff] at hroot
  obtain ⟨rfl, rfl⟩ | ⟨es, rfl⟩ := Tree.reach?_eq_some he
  · exact ⟨rfl, fun es hes => hroot ⟨es, hes ▸ ht⟩⟩
  · exact absurd ⟨es, ht⟩ hroot

/-- Below what is no directory only the root is looked at, and there are no source files. -/
theorem spec_of_not_dir (hroot : d.isDir root = .ok false) :
    d.Fits root suffix ∧ d.Shallow room root ∧ ∀ p, ¬ d.IsSource root suffix p := by
  have hnot : d.isDir root ≠ .ok true := by simp [hroot]
  refine ⟨fun p hp => ?_, fun t names es ht hdir => ?_, ?_⟩
  · cases hp with
    | root => exact exists_look_iff.1 (exists_map_eq_ok_iff.1 ⟨_, hroot⟩)
    | dir start reached => exact absurd rfl ((reach_of_not_dir hnot start reached).2 _)
    | entry start reached => exact absurd (reach_of_not_dir hnot start reached).1 (by simp)
  · exact absurd rfl ((reach_of_not_dir hnot ht hdir).2 es)
  · rintro p ⟨t, names, name, e, ht, he, -⟩
    exact absurd (reach_of_not_dir hnot ht he).1 (by simp)

/-- The list for a plain end. -/
theorem sourceFiles_plain (hs : IsPlainEnd suffix) : d.sourceFiles room root suffix =
    (d.filesMatching room [.everywhere, .wild (endsWith suffix)] root).mapError .ofSearch := by
  rw [sourceFiles, sourcePattern_plain hs]

theorem sourceFiles_eq_ok_iff_matching (hs : IsPlainEnd suffix) :
    d.sourceFiles room root suffix = .ok files ↔
      d.filesMatching room [.everywhere, .wild (endsWith suffix)] root = .ok files := by
  rw [sourceFiles_plain hs, mapError_eq_ok]

/-- The files among matches below a directory, sorted. -/
theorem filesMatching_of_dir {steps : List PatternStep} (hroot : d.isDir root = .ok true) :
    d.filesMatching room steps root = (d.matching room steps root).map fun ps =>
      ps.mergeSort fun p q => componentsLe p.parts q.parts := by
  rw [filesMatching, hroot]
  cases d.matching room steps root <;>
    simp [asked, Except.mapError, Except.map, Bind.bind, Except.bind, Pure.pure, Except.pure]

theorem filesMatching_of_not_dir {steps : List PatternStep} (hroot : d.isDir root = .ok false) :
    d.filesMatching room steps root = .ok [] := by
  rw [filesMatching, hroot]
  rfl

/-- What is listed are exactly the source files, strictly increasing by their components. -/
theorem spec_of_sourceFiles (hd : d.tree.Sound) (hs : IsPlainEnd suffix)
    (h : d.sourceFiles room root suffix = .ok files) :
    d.Fits root suffix ∧ d.Shallow room root ∧ (∀ p, p ∈ files ↔ d.IsSource root suffix p) ∧
      files.Pairwise fun p q => p.parts < q.parts := by
  rw [sourceFiles_eq_ok_iff_matching hs] at h
  cases hdir : d.isDir root with
  | error long => simp [filesMatching, hdir, asked, Except.mapError, bind_eq_ok] at h
  | ok b =>
    cases b with
    | false =>
      rw [filesMatching_of_not_dir hdir] at h
      cases h
      obtain ⟨hfits, hshallow, hnone⟩ := spec_of_not_dir hdir
      exact ⟨hfits, hshallow, fun p => by simp [hnone p], .nil⟩
    | true =>
      obtain ⟨es, hroot⟩ := isDir_eq_ok_true_iff.1 hdir
      have ht := sound_of_find hd hroot
      rw [filesMatching_of_dir hdir, map_eq_ok] at h
      obtain ⟨ps, hps, rfl⟩ := h
      obtain ⟨hfits, hshallow, hmem⟩ := mem_matching hroot ht hps
      refine ⟨hfits, hshallow, fun p => ?_, ?_⟩
      · rw [List.mem_mergeSort, hmem]
        constructor
        · rintro ⟨names, name, e, he, hend, rfl, hfile⟩
          exact ⟨_, names, name, e, hroot, he, rfl, hend,
            (isFile_iff_holdsFile hroot ht he (hfits _ (.entry hroot he hend))).1 hfile⟩
        · rintro ⟨t, names, name, e, hroot', he, rfl, hend, hholds⟩
          obtain rfl := Except.ok.inj (hroot.symm.trans hroot')
          exact ⟨names, name, e, he, hend, rfl,
            (isFile_iff_holdsFile hroot ht he (hfits _ (.entry hroot he hend))).2 hholds⟩
      · refine pairwise_sorted root.root (fun p hp => ?_) (nodup_matching hroot hps)
        obtain ⟨names, name, e, -, -, rfl, -⟩ := (hmem p).1 hp
        rfl

/-- A list that there is not has something that ended the search for it. -/
theorem hinders_of_sourceFiles (hd : d.tree.Sound) (hs : IsPlainEnd suffix) {fault : Fault}
    (h : d.sourceFiles room root suffix = .error fault) :
    ∃ e, d.Hinders room root suffix e ∧ fault = .ofSearch e := by
  rw [sourceFiles_plain hs, mapError_eq_error] at h
  obtain ⟨e, h, rfl⟩ := h
  refine ⟨e, ?_, rfl⟩
  cases hdir : d.isDir root with
  | error long =>
    rw [filesMatching, hdir] at h
    cases h
    obtain ⟨hlong, rfl⟩ := look_eq_error_iff.1 (map_eq_error.1 hdir)
    exact .tooLong .root hlong
  | ok b =>
    cases b with
    | false =>
      rw [filesMatching_of_not_dir hdir] at h
      cases h
    | true =>
      obtain ⟨es, hroot⟩ := isDir_eq_ok_true_iff.1 hdir
      rw [filesMatching_of_dir hdir, map_eq_error] at h
      exact hinders_of_matching hroot (sound_of_find hd hroot) h

/-- There is a list just if all paths that are looked at fit, and no directory is too far down. -/
theorem exists_sourceFiles_iff (hd : d.tree.Sound) (hs : IsPlainEnd suffix) :
    (∃ files, d.sourceFiles room root suffix = .ok files) ↔
      d.Fits root suffix ∧ d.Shallow room root := by
  constructor
  · rintro ⟨files, hfiles⟩
    obtain ⟨hfits, hshallow, -⟩ := spec_of_sourceFiles hd hs hfiles
    exact ⟨hfits, hshallow⟩
  · rintro ⟨hfits, hshallow⟩
    cases hfiles : d.sourceFiles room root suffix with
    | ok files => exact ⟨files, rfl⟩
    | error fault =>
      obtain ⟨e, he, -⟩ := hinders_of_sourceFiles hd hs hfiles
      exact absurd he (not_hinders hfits hshallow)

/-- **There is a list just if all paths that are looked at fit and no directory is too far down, and
it holds exactly the source files, strictly increasing by their components.** -/
theorem sourceFiles_eq_ok_iff (hd : d.tree.Sound) (hs : IsPlainEnd suffix) :
    d.sourceFiles room root suffix = .ok files ↔
      d.Fits root suffix ∧ d.Shallow room root ∧ (∀ p, p ∈ files ↔ d.IsSource root suffix p) ∧
        files.Pairwise fun p q => p.parts < q.parts := by
  refine ⟨spec_of_sourceFiles hd hs, ?_⟩
  rintro ⟨hfits, hshallow, hmem, hsorted⟩
  obtain ⟨files', hfiles'⟩ := (exists_sourceFiles_iff hd hs).2 ⟨hfits, hshallow⟩
  obtain ⟨-, -, hmem', hsorted'⟩ := spec_of_sourceFiles hd hs hfiles'
  rw [hfiles', eq_of_pairwise hsorted' hsorted fun p => (hmem' p).trans (hmem p).symm]

/-- A list that there is not was refused because of a path that is looked at, or because of a
directory too far down. -/
theorem sourceFiles_error (hd : d.tree.Sound) (hs : IsPlainEnd suffix)
    (h : ¬ (d.Fits root suffix ∧ d.Shallow room root)) :
    (∃ p, d.LooksAt root suffix p ∧ d.find p = .error .nameTooLong ∧
      d.sourceFiles room root suffix = .error (.stray (.pathTooLong p))) ∨
    (¬ d.Shallow room root ∧ d.sourceFiles room root suffix = .error (.stray .tooDeep)) := by
  cases hfiles : d.sourceFiles room root suffix with
  | ok files => exact absurd ((exists_sourceFiles_iff hd hs).1 ⟨files, hfiles⟩) h
  | error fault =>
    obtain ⟨e, ⟨looked, long⟩ | deep, rfl⟩ := hinders_of_sourceFiles hd hs hfiles
    · exact .inl ⟨_, looked, long, rfl⟩
    · exact .inr ⟨deep, rfl⟩

/-! ## Other enumerations -/

namespace Reordered

variable {d' : Disk}

theorem holdsFile (h : d.Reordered d') {t t' : Tree} (ht : t.Reordered t')
    (hfile : d.HoldsFile p t) : d'.HoldsFile p t' := by
  cases ht with
  | file bytes => trivial
  | link target =>
    obtain ⟨bytes, hbytes⟩ := hfile
    obtain ⟨t', ht', hrel⟩ := h.find_ok hbytes
    cases hrel
    exact ⟨bytes, ht'⟩
  | dir names entries => exact hfile.elim

theorem isSource (h : d.Reordered d') (hp : d.IsSource root suffix p) :
    d'.IsSource root suffix p := by
  obtain ⟨t, names, name, e, ht, he, hsame, hend, hfile⟩ := hp
  obtain ⟨t', ht', hrel⟩ := h.find_ok ht
  obtain ⟨e', he', hrel'⟩ := hrel.reach_some he
  exact ⟨t', names, name, e', ht', he', hsame, hend, h.holdsFile hrel' hfile⟩

theorem looksAt (h : d.Reordered d') (hp : d.LooksAt root suffix p) :
    d'.LooksAt root suffix p := by
  cases hp with
  | root => exact .root
  | dir start reached =>
    obtain ⟨t', ht', hrel⟩ := h.find_ok start
    obtain ⟨e', he', hrel'⟩ := hrel.reach_some reached
    cases hrel' with
    | dir names entries => exact .dir ht' he'
  | entry start reached ending =>
    obtain ⟨t', ht', hrel⟩ := h.find_ok start
    obtain ⟨e', he', -⟩ := hrel.reach_some reached
    exact .entry ht' he' ending

theorem shallow (h : d.Reordered d') (hshallow : d.Shallow room root) : d'.Shallow room root := by
  intro t' names es ht' hdir
  obtain ⟨t, ht, hrel⟩ := h.symm.find_ok ht'
  obtain ⟨e, he, hrel'⟩ := hrel.reach_some hdir
  cases hrel' with
  | dir => exact hshallow t names _ ht he

theorem fits (h : d.Reordered d') (hfits : d.Fits root suffix) : d'.Fits root suffix := by
  intro p hp hlong
  exact hfits p (h.symm.looksAt hp) (h.find_error_iff.1 hlong)

/-- **The list does not depend on how directories are enumerated.** -/
theorem sourceFiles (h : d.Reordered d') (hd : d.tree.Sound) (hs : IsPlainEnd suffix)
    (hfiles : d.sourceFiles room root suffix = .ok files) :
    d'.sourceFiles room root suffix = .ok files := by
  obtain ⟨hfits, hshallow, hmem, hsorted⟩ := (sourceFiles_eq_ok_iff hd hs).1 hfiles
  refine (sourceFiles_eq_ok_iff (h.tree.sound hd) hs).2
    ⟨h.fits hfits, h.shallow hshallow, fun p => ?_, hsorted⟩
  exact (hmem p).trans ⟨h.isSource, h.symm.isSource⟩

end Reordered

end Disk

end SymbolAtlas
