import SymbolAtlas.Disk.Pattern
import SymbolAtlas.Proofs.Disk.Paths
import SymbolAtlas.Proofs.Outcomes

/-!
# What is below a directory

A place in a tree is the list of the names that lead to it. Below what a path names, a disk finds at
each place what the tree holds there, as long as the path is not too long: a name is an entry of the
directory reached so far, and only the last one may be a link, which a disk would follow.

* `Tree.reach?` — what names lead to, no link being followed;
* `Tree.Sound` — a tree as a system can store it;
* `Tree.mem_dirsFrom` — the directories of a tree are listed at their places;
* `Disk.find_under` — what a path with names after it leads to.
-/

namespace SymbolAtlas

namespace Path

/-- The path of the place that names lead to from `p`. -/
def under (p : Path) (names : List Text) : Path :=
  { p with parts := p.parts ++ names }

@[simp] theorem under_nil (p : Path) : p.under [] = p := by
  simp [under]

@[simp] theorem under_below (p : Path) (name : Text) (names : List Text) :
    (p.below name).under names = p.under (name :: names) := by
  simp [under, below]

@[simp] theorem below_under (p : Path) (names : List Text) (name : Text) :
    (p.under names).below name = p.under (names ++ [name]) := by
  simp [under, below]

end Path

namespace Tree

variable {t e : Tree} {es : Fields Text Tree} {name : Text} {names : List Text}

/-- The name can be that of an entry: it is written as its directory lists it, it is no step to
where one is or was, and it is not too long. -/
structure IsEntryName (name : Text) : Prop where
  listed : name.listed = name
  ne_here : name ≠ Path.hereName
  ne_up : name ≠ Path.upName
  no_nul : CodePoint.char '\x00' ∉ name
  short : name.fileBytes.length ≤ Disk.maxNameBytes

/-- The tree can be stored: the entries of each directory have names, each a name of its own. -/
inductive Sound : Tree → Prop
  | file (bytes : List UInt8) : Sound (.file bytes)
  | link (target : Text) : Sound (.link target)
  | dir {es : Fields Text Tree} (names : ∀ e ∈ es, IsEntryName e.1)
      (distinct : (Fields.names es).Nodup) (entries : ∀ e ∈ es, Sound e.2) : Sound (.dir es)

instance (name : Text) : Decidable (IsEntryName name) :=
  decidable_of_iff (name.listed = name ∧ name ≠ Path.hereName ∧ name ≠ Path.upName ∧
      CodePoint.char '\x00' ∉ name ∧ name.fileBytes.length ≤ Disk.maxNameBytes)
    ⟨fun ⟨h₁, h₂, h₃, h₄, h₅⟩ => ⟨h₁, h₂, h₃, h₄, h₅⟩,
      fun ⟨h₁, h₂, h₃, h₄, h₅⟩ => ⟨h₁, h₂, h₃, h₄, h₅⟩⟩

theorem IsEntryName.hasFileBytes (h : IsEntryName name) : name.hasFileBytes :=
  h.listed ▸ Text.hasFileBytes_ofFileBytes _

@[simp] theorem sound_file (bytes : List UInt8) : (Tree.file bytes).Sound :=
  .file bytes

@[simp] theorem sound_link (target : Text) : (Tree.link target).Sound :=
  .link target

theorem sound_dir_iff :
    (Tree.dir es).Sound ↔
      (∀ e ∈ es, IsEntryName e.1) ∧ (Fields.names es).Nodup ∧ ∀ e ∈ es, e.2.Sound := by
  constructor
  · intro h
    cases h with
    | dir names distinct entries => exact ⟨names, distinct, entries⟩
  · rintro ⟨names, distinct, entries⟩
    exact .dir names distinct entries

/-- What names lead to from a tree, each as its directory lists it, and no link being followed. -/
def reach? : Tree → List Text → Option Tree
  | t, [] => some t
  | t, name :: names =>
    match Fields.get? t.entries name with
    | some child => child.reach? names
    | none => none

/-! ## Places -/

@[simp] theorem reach?_nil (t : Tree) : t.reach? [] = some t := rfl

theorem reach?_cons_eq_some_iff :
    t.reach? (name :: names) = some e ↔
      ∃ child, Fields.get? t.entries name = some child ∧ child.reach? names = some e := by
  rw [reach?]
  cases Fields.get? t.entries name <;> simp

theorem reach?_append (t : Tree) (names names' : List Text) :
    t.reach? (names ++ names') = (t.reach? names).bind (·.reach? names') := by
  induction names generalizing t with
  | nil => rfl
  | cons name names ih =>
    rw [List.cons_append, reach?, reach?]
    cases Fields.get? t.entries name with
    | none => rfl
    | some child => exact ih child

/-- Only a directory has entries. -/
theorem get?_entries_eq_some_iff :
    Fields.get? t.entries name = some e ↔ ∃ es, t = .dir es ∧ Fields.get? es name = some e := by
  cases t <;> simp [entries]

theorem reach?_concat_eq_some_iff :
    t.reach? (names ++ [name]) = some e ↔
      ∃ es, t.reach? names = some (.dir es) ∧ Fields.get? es name = some e := by
  rw [reach?_append, Option.bind_eq_some_iff]
  constructor
  · rintro ⟨t', ht', he⟩
    obtain ⟨child, hchild, ⟨⟩⟩ := reach?_cons_eq_some_iff.1 he
    obtain ⟨es, rfl, hes⟩ := get?_entries_eq_some_iff.1 hchild
    exact ⟨es, ht', hes⟩
  · rintro ⟨es, ht', he⟩
    exact ⟨_, ht', reach?_cons_eq_some_iff.2 ⟨e, he, rfl⟩⟩

/-- Only from a directory is anything else reached. -/
theorem reach?_eq_some (h : t.reach? names = some e) : (names = [] ∧ t = e) ∨ ∃ es, t = .dir es := by
  cases names with
  | nil => exact .inl ⟨rfl, Option.some.inj h⟩
  | cons name names =>
    obtain ⟨child, hchild, -⟩ := reach?_cons_eq_some_iff.1 h
    obtain ⟨es, rfl, -⟩ := get?_entries_eq_some_iff.1 hchild
    exact .inr ⟨es, rfl⟩

/-- Nothing is reached through a link. -/
theorem reach?_link {target : Text} (h : (Tree.link target).reach? names = some e) :
    names = [] ∧ e = .link target := by
  obtain ⟨hnames, he⟩ | ⟨es, hes⟩ := reach?_eq_some h
  · exact ⟨hnames, he.symm⟩
  · cases hes

namespace Sound

theorem entry (h : (Tree.dir es).Sound) (he : Fields.get? es name = some e) :
    IsEntryName name ∧ e.Sound := by
  obtain ⟨names, distinct, entries⟩ := sound_dir_iff.1 h
  have hmem := (Fields.get?_eq_some_iff distinct).1 he
  exact ⟨names _ hmem, entries _ hmem⟩

/-- What is reached in a sound tree is sound, through names that entries can have. -/
theorem reach (h : t.Sound) (he : t.reach? names = some e) :
    (∀ name ∈ names, IsEntryName name) ∧ e.Sound := by
  induction names generalizing t with
  | nil =>
    obtain rfl := Option.some.inj he
    exact ⟨by simp, h⟩
  | cons name names ih =>
    obtain ⟨child, hchild, hrest⟩ := reach?_cons_eq_some_iff.1 he
    obtain ⟨es, rfl, hes⟩ := get?_entries_eq_some_iff.1 hchild
    obtain ⟨hname, hsound⟩ := h.entry hes
    obtain ⟨hnames, he⟩ := ih hsound hrest
    exact ⟨List.forall_mem_cons.2 ⟨hname, hnames⟩, he⟩

end Sound

/-! ## Directories -/

theorem dirsIn_eq_flatMap (p : Path) (es : Fields Text Tree) :
    dirsIn p es = es.flatMap fun e => dirsFrom (p.below e.1) e.2 := by
  induction es with
  | nil => rfl
  | cons e es ih =>
    obtain ⟨name, t⟩ := e
    rw [dirsIn, ih, List.flatMap_cons]

/-- **The directories of a tree are listed at their places.** By induction on the tree, a place
being here or below one of the entries. -/
theorem mem_dirsFrom (h : t.Sound) {p q : Path} :
    q ∈ dirsFrom p t ↔ ∃ names es, t.reach? names = some (.dir es) ∧ q = p.under names := by
  induction h generalizing p q with
  | file bytes =>
    simp only [dirsFrom, List.not_mem_nil, false_iff]
    rintro ⟨names, es, hreach, -⟩
    cases names <;> cases hreach
  | link target =>
    simp only [dirsFrom, List.not_mem_nil, false_iff]
    rintro ⟨names, es, hreach, -⟩
    cases (reach?_link hreach).2
  | @dir es names distinct entries ih =>
    have hes : ∀ {name child}, Fields.get? es name = some child ↔ (name, child) ∈ es :=
      Fields.get?_eq_some_iff distinct
    rw [dirsFrom, dirsIn_eq_flatMap, List.mem_cons, List.mem_flatMap]
    constructor
    · rintro (rfl | ⟨⟨name, child⟩, hmem, hq⟩)
      · exact ⟨[], es, rfl, by simp⟩
      · obtain ⟨names, es', hreach, rfl⟩ := (ih _ hmem).1 hq
        exact ⟨name :: names, es', reach?_cons_eq_some_iff.2 ⟨child, hes.2 hmem, hreach⟩, by simp⟩
    · rintro ⟨names, es', hreach, rfl⟩
      cases names with
      | nil => exact .inl (by simp)
      | cons name names =>
        obtain ⟨child, hchild, hreach⟩ := reach?_cons_eq_some_iff.1 hreach
        exact .inr ⟨(name, child), hes.1 hchild, (ih _ (hes.1 hchild)).2
          ⟨names, es', hreach, by simp⟩⟩

end Tree

/-! ## Walking -/

namespace Disk

open SymbolAtlas.Tree

variable {d : Disk} {root t e : Tree} {place : List Tree} {names : List Text}

/-- What one name does to a walk. -/
inductive Step
  | fails (e : AccessError)
  | follows (target : Text)
  | goes (place : List Tree)

/-- What a name does at a place. -/
def stepFrom (place : List Tree) (name : Text) : Step :=
  match place with
  | [] => .fails .missing
  | .dir entries :: up =>
    if name = Path.hereName then .goes (.dir entries :: up)
    else if name = Path.upName then .goes (if up.isEmpty then [.dir entries] else up)
    else if maxNameBytes < name.fileBytes.length then .fails .nameTooLong
    else match Fields.get? entries name.listed with
      | none => .fails .missing
      | some (.link target) => .follows target
      | some child => .goes (child :: .dir entries :: up)
  | _ :: _ => .fails .notDirectory

/-- A walk takes its names one by one. -/
theorem walkWith_cons (onLink : List Tree → Text → List Text → Except AccessError Tree)
    (place : List Tree) (name : Text) (rest : List Text) :
    walkWith onLink place (name :: rest) =
      match stepFrom place name with
      | .fails e => .error e
      | .follows target => onLink place target rest
      | .goes place => walkWith onLink place rest := by
  cases place with
  | nil => rfl
  | cons here up =>
    cases here with
    | file bytes => rfl
    | link target => rfl
    | dir es =>
      rw [walkWith.eq_3, stepFrom]
      by_cases hhere : name = Path.hereName
      · simp only [if_pos hhere]
      by_cases hup : name = Path.upName
      · simp only [if_neg hhere, if_pos hup]
      by_cases hlong : maxNameBytes < name.fileBytes.length
      · simp only [if_neg hhere, if_neg hup, if_pos hlong]
      simp only [if_neg hhere, if_neg hup, if_neg hlong]
      cases Fields.get? es name.listed with
      | none => rfl
      | some child => cases child <;> rfl

/-- A walk that finds something leads on from it. -/
def LeadsOn (root : Tree) (onward : List Tree → List Text → Except AccessError Tree) : Prop :=
  ∀ place names t, onward place names = .ok t →
    ∃ links up, ∀ rest, onward place (names ++ rest) = walk root links (t :: up) rest

theorem leadsOn_walkWith {onLink : List Tree → Text → List Text → Except AccessError Tree}
    (links : Nat) (hself : walk root links = walkWith onLink)
    (honLink : ∀ target, LeadsOn root fun place rest => onLink place target rest) :
    LeadsOn root (walkWith onLink) := by
  intro place names t h
  induction names generalizing place with
  | nil =>
    cases place with
    | nil => cases h
    | cons here up =>
      cases h
      exact ⟨links, up, fun rest => by rw [hself, List.nil_append]⟩
  | cons name names ih =>
    simp only [List.cons_append]
    rw [walkWith_cons] at h
    simp only [walkWith_cons]
    cases hstep : stepFrom place name with
    | fails e => simp [hstep] at h
    | follows target =>
      simp only [hstep] at h
      exact honLink target place names t h
    | goes place' =>
      simp only [hstep] at h
      exact ih place' h

/-- **What is found on the way is walked on from.** -/
theorem leadsOn_walk (root : Tree) (links : Nat) : LeadsOn root (walk root links) := by
  induction links with
  | zero =>
    refine leadsOn_walkWith 0 rfl fun target place names t h => ?_
    cases h
  | succ links ih =>
    refine leadsOn_walkWith (links + 1) rfl fun target place names t h => ?_
    obtain ⟨links', up, hrest⟩ := ih _ _ _ h
    refine ⟨links', up, fun rest => ?_⟩
    rw [← hrest rest, List.append_assoc]

/-- Going to an entry that is no link. -/
theorem stepFrom_entry {es : Fields Text Tree} (h : (Tree.dir es).Sound) {name : Text}
    (he : Fields.get? es name = some e) (hlink : ∀ target, e ≠ .link target) (up : List Tree) :
    stepFrom (.dir es :: up) name = .goes (e :: .dir es :: up) := by
  obtain ⟨hname, -⟩ := h.entry he
  rw [stepFrom, if_neg hname.ne_here, if_neg hname.ne_up, if_neg (Nat.not_lt.2 hname.short),
    hname.listed, he]
  cases e with
  | link target => exact absurd rfl (hlink target)
  | file bytes => rfl
  | dir es' => rfl

/-- Names of entries lead where they lead in the tree. -/
theorem walk_reach (h : t.Sound) (he : t.reach? names = some e) (hlink : ∀ target, e ≠ .link target)
    (links : Nat) (up : List Tree) : walk root links (t :: up) names = .ok e := by
  have hwith : ∃ onLink, walk root links = walkWith onLink := by
    cases links <;> exact ⟨_, rfl⟩
  obtain ⟨onLink, hwith⟩ := hwith
  rw [hwith]
  induction names generalizing t up with
  | nil =>
    obtain rfl := Option.some.inj he
    rfl
  | cons name names ih =>
    obtain ⟨child, hchild, hrest⟩ := reach?_cons_eq_some_iff.1 he
    obtain ⟨es, rfl, hes⟩ := get?_entries_eq_some_iff.1 hchild
    have hgo : ∀ target, child ≠ .link target := by
      rintro target rfl
      exact hlink target (reach?_link hrest).2
    rw [walkWith_cons, stepFrom_entry h hes hgo up]
    exact ih (h.entry hes).2 hrest (.dir es :: up)

/-! ## Finding -/

/-- The names below a path are walked after its own. -/
theorem absoluteParts_under (d : Disk) (p : Path) (names : List Text) :
    d.absoluteParts (p.under names) = d.absoluteParts p ++ names := by
  have habsolute : (p.under names).isAbsolute = p.isAbsolute := rfl
  simp only [absoluteParts, habsolute]
  split
  · rfl
  · exact (List.append_assoc ..).symm

theorem hasNul_eq_false_iff {p : Path} :
    hasNul p = false ↔ ∀ name ∈ p.parts, CodePoint.char '\x00' ∉ name := by
  simp [hasNul]

theorem find_eq_ok_iff {p : Path} :
    d.find p = .ok t ↔ p.text.hasFileBytes ∧ hasNul p = false ∧ p.bytes.length ≤ maxPathBytes ∧
      walk d.tree maxLinks [d.tree] (d.absoluteParts p) = .ok t := by
  unfold find
  split_ifs with hbytes hnul hlong
  · simp_all
  · simp_all
  · simp [Nat.not_le.2 hlong]
  · simp_all

/-- Names of entries have bytes and hold no NUL, like the path that they are below. -/
theorem usable_under {p : Path} (hp : d.find p = .ok t) (h : t.Sound)
    (he : t.reach? names = some e) :
    (p.under names).text.hasFileBytes ∧ hasNul (p.under names) = false := by
  obtain ⟨hbytes, hnul, -⟩ := find_eq_ok_iff.1 hp
  have hnames := (h.reach he).1
  refine ⟨?_, ?_⟩
  · rw [Path.hasFileBytes_text, List.all_eq_true] at hbytes ⊢
    exact List.forall_mem_append.2 ⟨hbytes, fun name hname => (hnames name hname).hasFileBytes⟩
  · rw [hasNul_eq_false_iff] at hnul ⊢
    exact List.forall_mem_append.2 ⟨hnul, fun name hname => (hnames name hname).no_nul⟩

/-- **What a path with names of entries after it leads to**, unless it is too long. -/
theorem find_under {p : Path} (hp : d.find p = .ok t) (h : t.Sound)
    (he : t.reach? names = some e) (hlink : ∀ target, e ≠ .link target) :
    d.find (p.under names) =
      if maxPathBytes < (p.under names).bytes.length then .error .nameTooLong else .ok e := by
  obtain ⟨-, -, -, hwalk⟩ := find_eq_ok_iff.1 hp
  obtain ⟨hbytes, hnul⟩ := usable_under hp h he
  obtain ⟨links, up, hrest⟩ := leadsOn_walk _ _ _ _ _ hwalk
  rw [find, hbytes, hnul, absoluteParts_under, hrest, walk_reach h he hlink links up]
  rfl

/-! ## Soundness -/

/-- A walk from sound trees leads to a sound tree. -/
def StaysSound (onward : List Tree → List Text → Except AccessError Tree) : Prop :=
  ∀ place names t, onward place names = .ok t → (∀ here ∈ place, here.Sound) → t.Sound

/-- A name leads from sound trees to sound trees. -/
theorem sound_of_stepFrom {name : Text} {place' : List Tree}
    (h : stepFrom place name = .goes place') (hplace : ∀ here ∈ place, here.Sound) :
    ∀ here ∈ place', here.Sound := by
  unfold stepFrom at h
  split at h
  · cases h
  · next es up =>
    have hhere := hplace _ (List.mem_cons_self ..)
    have hup : ∀ here ∈ up, here.Sound := fun here hmem => hplace here (List.mem_cons_of_mem _ hmem)
    split_ifs at h with hdot hdots hempty hlong
    · cases h
      exact hplace
    · cases h
      simpa using hhere
    · cases h
      exact hup
    · split at h
      · cases h
      · cases h
      · next child hlink hchild =>
        cases h
        exact List.forall_mem_cons.2 ⟨(hhere.entry hchild).2, hplace⟩
  · cases h

theorem staysSound_walkWith {onLink : List Tree → Text → List Text → Except AccessError Tree}
    (honLink : ∀ target, StaysSound fun place rest => onLink place target rest) :
    StaysSound (walkWith onLink) := by
  intro place names t h hplace
  induction names generalizing place with
  | nil =>
    cases place with
    | nil => cases h
    | cons here up =>
      cases h
      exact hplace _ (List.mem_cons_self ..)
  | cons name names ih =>
    rw [walkWith_cons] at h
    cases hstep : stepFrom place name with
    | fails e => simp [hstep] at h
    | follows target =>
      simp only [hstep] at h
      exact honLink target place names t h hplace
    | goes place' =>
      simp only [hstep] at h
      exact ih place' h (sound_of_stepFrom hstep hplace)

theorem staysSound_walk (hroot : root.Sound) (links : Nat) : StaysSound (walk root links) := by
  induction links with
  | zero =>
    refine staysSound_walkWith fun target place names t h => ?_
    cases h
  | succ links ih =>
    refine staysSound_walkWith fun target place names t h hplace => ih _ _ _ h ?_
    split
    · simpa using hroot
    · exact hplace

/-- What a path names on a sound disk is sound. -/
theorem sound_of_find (hd : d.tree.Sound) {p : Path} (h : d.find p = .ok t) : t.Sound :=
  staysSound_walk hd _ _ _ _ (find_eq_ok_iff.1 h).2.2.2 (by simpa using hd)

end Disk

end SymbolAtlas
