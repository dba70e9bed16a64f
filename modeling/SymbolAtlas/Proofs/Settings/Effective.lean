import Mathlib.Data.List.Find
import SymbolAtlas.Proofs.Settings.Timeout
import SymbolAtlas.Proofs.Text.Utf8

/-!
# Effective values

A setting has the value that the overrides give it, and else the one that is looked up in the file.
Loading settings depends on these values alone: on those of the seven names, wherever they come
from. If a setting that is needed has none, the first such setting is named, unless a setting before
it is a path that cannot be made sense of.

* `Settings.effective` — the value of a setting, with `Settings.valueOf_merge`;
* `Settings.ofValues_congr` — the values of the seven names are all that counts;
* `Settings.required`, `Settings.Legible` — the settings that are needed, and the paths that can be
  read, with `Settings.ofValues_eq_missing_iff`;
* `load_effective` — loading as a whole.
-/

namespace SymbolAtlas

/-- A path whose first component begins with another character does not begin with a tilde. -/
theorem Path.not_tilded {p : Path} {first : Text} {rest : List Text}
    (hparts : p.parts = first :: rest) (hfirst : first.head? ≠ some (.char '~')) :
    ¬ p.Tilded := by
  rintro ⟨-, user, rest', hparts'⟩
  obtain ⟨rfl, -⟩ := List.cons.inj (hparts.symm.trans hparts')
  exact hfirst rfl

namespace Settings

open Toml

/-! ## Overrides over a table -/

/-- The value, if it is one. -/
def present? : Value → Option Value
  | .absent => none
  | v => some v

/-- What the overrides give to a setting, if they give anything. -/
def given (overrides : Value.Table) (name : String) : Option Value :=
  (Fields.get? overrides name).bind present?

/-- The value of a setting: the one that the overrides give, or else the one in the table. -/
def effective (overrides table : Value.Table) (name : String) : Value :=
  (given overrides name).getD (lookup table name)

theorem given_cons (f : String × Value) (overrides : Value.Table) (name : String) :
    given (f :: overrides) name = if f.1 = name then present? f.2 else given overrides name := by
  obtain ⟨other, v⟩ := f
  rw [given, Fields.get?]
  split <;> rfl

theorem merge_cons (f : String × Value) (upper lower : Value.Table) :
    merge (f :: upper) lower =
      merge upper ((present? f.2).elim lower (Fields.put lower f.1)) := by
  obtain ⟨name, v⟩ := f
  cases v <;> rfl

/-- What is put over a table wins where it gives a value. -/
theorem get?_merge {upper : Value.Table} (h : (Fields.names upper).Nodup) (lower : Value.Table)
    (name : String) :
    Fields.get? (merge upper lower) name = (given upper name).or (Fields.get? lower name) := by
  induction upper generalizing lower with
  | nil => rfl
  | cons f upper ih =>
    obtain ⟨hlast, hnodup⟩ := List.nodup_cons.1 h
    rw [merge_cons, ih hnodup, given_cons]
    split
    · next hname =>
      have hgiven : given upper name = none := by
        rw [given, Fields.get?_eq_none_iff.2 (hname ▸ hlast)]
        rfl
      rw [hgiven]
      cases present? f.2 <;> simp [Fields.get?_put, hname]
    · next hname =>
      cases present? f.2 <;> simp [Fields.get?_put, hname]

theorem get?_map_self {α : Type} (f : String → α) {all : List String} {name : String}
    (h : name ∈ all) : Fields.get? (all.map fun n => (n, f n)) name = some (f name) := by
  induction all with
  | nil => cases h
  | cons n all ih => grind [Fields.get?]

/-- The value that settings are loaded with is the effective one. -/
theorem valueOf_merge {overrides : Value.Table} (h : (Fields.names overrides).Nodup)
    (table : Value.Table) {name : String} (hname : name ∈ names) :
    valueOf (merge overrides (flatten table)) name = effective overrides table name := by
  rw [valueOf, get?_merge h, flatten, get?_map_self _ hname, effective]
  cases given overrides name <;> rfl

section Values

variable {homes : Homes} {room : String → Nat} {requireFile : Bool} {path : Path}
  {values : Value.Table} {name : String}

/-- Settings are made from the values of the seven names. -/
theorem ofValues_congr {values' : Value.Table}
    (h : ∀ name ∈ names, valueOf values name = valueOf values' name) :
    ofValues homes room requireFile path values =
      ofValues homes room requireFile path values' := by
  simp only [names, List.forall_mem_cons] at h
  obtain ⟨hrepo, hserver, hfile, htimeout, hjava, hdata, hlanguage, -⟩ := h
  simp only [ofValues, require, hrepo, hserver, hfile, htimeout, hjava, hdata, hlanguage]

/-! ## What a path is read from -/

/-- What does not count as given is always written out. -/
theorem displayError?_of_not_truthy {room : Nat} (hroom : 0 < room) {v : Value}
    (h : v.truthy = false) : displayError? room v = none := by
  obtain ⟨room, rfl⟩ := Nat.exists_eq_add_one.2 hroom
  cases v with
  | int n =>
    obtain rfl : n = 0 := by simpa [Value.truthy] using h
    -- The power is far too large to be worked out.
    have hshort : Value.isLongInteger 0 = false := by
      rw [Value.isLongInteger]
      generalize 4300 = digits
      exact decide_eq_false (Nat.not_le.2 (Nat.pow_pos (by decide)))
    rw [displayError?, Value.literalError?, hshort]
    · rfl
    all_goals rintro _ ⟨⟩
  | list items =>
    obtain rfl : items = [] := by simpa [Value.truthy] using h
    rfl
  | table fields =>
    obtain rfl : fields = [] := by simpa [Value.truthy] using h
    rfl
  | _ => rfl

/-- The value of a setting can be read as a path: it can be written out, and there is a home
directory for a tilde at its front. The path of the file that is asked about is taken as it is,
whatever is at its front. -/
structure Legible (homes : Homes) (room : String → Nat) (name : String) (v : Value) : Prop where
  written : displayError? (room name) v = none
  home : name ≠ filePath → ∃ p, (Path.parse v.display).expandHome homes = .ok p

theorem pathOf_eq (room : Nat) (v : Value) :
    pathOf room v = (displayError? room v).elim (.ok (Path.parse v.display))
      fun e => .error (.stray (.ofLiteral e)) := by
  rw [pathOf, textOf_eq]
  cases displayError? room v <;> rfl

theorem pathOf_eq_ok_iff {room : Nat} {v : Value} {p : Path} :
    pathOf room v = .ok p ↔ displayError? room v = none ∧ p = Path.parse v.display := by
  rw [pathOf_eq]
  cases displayError? room v with
  | none => simp [eq_comm]
  | some e => simp

theorem exists_homePathOf_iff (hname : name ≠ filePath) {v : Value} :
    (∃ p, homePathOf homes (room name) v = .ok p) ↔ Legible homes room name v := by
  unfold homePathOf
  simp only [bind_eq_ok, pathOf_eq_ok_iff]
  constructor
  · rintro ⟨p, q, ⟨hwritten, rfl⟩, hp⟩
    refine ⟨hwritten, fun _ => ?_⟩
    split at hp
    · next p' hp' => exact ⟨p', hp'⟩
    · cases hp
  · rintro ⟨hwritten, hhome⟩
    obtain ⟨p, hp⟩ := hhome hname
    exact ⟨p, _, ⟨hwritten, rfl⟩, by rw [hp]; rfl⟩

theorem exists_pathOf_iff (homes : Homes) {v : Value} :
    (∃ p, pathOf (room filePath) v = .ok p) ↔ Legible homes room filePath v := by
  simp only [pathOf_eq_ok_iff]
  constructor
  · rintro ⟨p, hwritten, -⟩
    exact ⟨hwritten, fun h => absurd rfl h⟩
  · rintro ⟨hwritten, -⟩
    exact ⟨_, hwritten, rfl⟩

/-- A path without a tilde can be read wherever the home directories are. -/
theorem legible_of_not_tilded {v : Value} (hwritten : displayError? (room name) v = none)
    (htilde : ¬ (Path.parse v.display).Tilded) : Legible homes room name v where
  written := hwritten
  home _ := by
    cases h : (Path.parse v.display).expandHome homes with
    | ok p => exact ⟨p, rfl⟩
    | error e => exact absurd (Path.tilded_of_expandHome h) htilde

/-! ## The first setting without a value -/

/-- The computation never ends because a setting has no value. -/
def Supplied {α : Type} (m : Except Fault α) : Prop :=
  ∀ key source, m ≠ .error (.failure (.settingMissing key source))

namespace Supplied

variable {α β : Type} {m : Except Fault α}

theorem ok (a : α) : Supplied (.ok a) := by
  rintro key source ⟨⟩

theorem stray (e : Stray) : Supplied (.error (.stray e) : Except Fault α) := by
  rintro key source ⟨⟩

theorem bind {f : α → Except Fault β} (hm : Supplied m) (hf : ∀ a, Supplied (f a)) :
    Supplied (m >>= f) := by
  intro key source h
  obtain h | ⟨a, -, h⟩ := bind_eq_error.1 h
  · exact hm key source h
  · exact hf a key source h

theorem map (hm : Supplied m) (g : α → β) : Supplied (g <$> m) :=
  fun key source h => hm key source (map_eq_error.1 h)

end Supplied

/-- A value that is written out is not missing. -/
theorem supplied_written {α : Type} (why : Option LiteralError) (shown : α) :
    Supplied (why.elim (.ok shown) fun e => .error (.stray (.ofLiteral e))) := by
  cases why with
  | none => exact .ok shown
  | some e => exact .stray _

theorem supplied_textOf (room : Nat) (v : Value) : Supplied (textOf room v) := by
  rw [textOf_eq]
  exact supplied_written _ _

theorem supplied_literalOf (room : Nat) (v : Value) : Supplied (literalOf room v) := by
  rw [literalOf_eq]
  exact supplied_written _ _

theorem supplied_pathOf (room : Nat) (v : Value) : Supplied (pathOf room v) :=
  (supplied_textOf room v).map Path.parse

theorem supplied_homePathOf (homes : Homes) (room : Nat) (v : Value) :
    Supplied (homePathOf homes room v) := by
  refine .bind (supplied_pathOf room v) fun p => ?_
  cases p.expandHome homes with
  | ok q => exact .ok q
  | error e => exact .stray _

theorem supplied_numberOf (v : Value) : Supplied (numberOf v) := by
  unfold numberOf
  split
  · split
    · exact .ok _
    · exact .stray _
  · exact .ok _
  · exact .ok _
  · exact .ok _

theorem supplied_timeoutOf (room : Nat) (v : Value) : Supplied (timeoutOf room v) := by
  refine .bind (supplied_numberOf v) fun x => ?_
  cases x with
  | none => exact .bind (supplied_literalOf room v) fun shown => by rintro key source ⟨⟩
  | some x =>
    dsimp only
    split
    · exact .bind (supplied_literalOf room v) fun shown => by rintro key source ⟨⟩
    · exact .ok x

theorem supplied_givenText (room : Nat) (v : Value) (default : Text) :
    Supplied (givenText room v default) := by
  unfold givenText
  split
  · exact supplied_textOf room v
  · exact .ok _

theorem supplied_givenPath {read : Value → Except Fault Path} {v : Value}
    (h : Supplied (read v)) : Supplied (givenPath read v) := by
  unfold givenPath
  split
  · exact h.map some
  · exact .ok _

theorem require_eq_missing_iff {key : String} {source : Option Path} :
    require values name path = .error (.failure (.settingMissing key source)) ↔
      isBlankValue (valueOf values name) = true ∧ key = name ∧ source = some path := by
  unfold require
  dsimp only
  split
  · next h =>
    simp only [h, Except.error.injEq, Fault.failure.injEq, Failure.settingMissing.injEq, true_and]
    exact and_congr eq_comm eq_comm
  · next h => simp [h]

/-- A setting that is needed is missing where it has no value. -/
theorem required_eq_missing_iff {α : Type} {f : Value → Except Fault α} (hf : ∀ v, Supplied (f v))
    {key : String} {source : Option Path} :
    require values name path >>= f = .error (.failure (.settingMissing key source)) ↔
      isBlankValue (valueOf values name) = true ∧ key = name ∧ source = some path := by
  rw [bind_eq_error, require_eq_missing_iff]
  refine or_iff_left ?_
  rintro ⟨v, -, hv⟩
  exact hf v key source hv

theorem exists_required_iff {α : Type} {f : Value → Except Fault α} :
    (∃ a, require values name path >>= f = .ok a) ↔
      isBlankValue (valueOf values name) = false ∧ ∃ a, f (valueOf values name) = .ok a := by
  unfold require
  dsimp only
  split
  · next h => simp [h, bind, Except.bind]
  · next h => simp [h, bind, Except.bind]

theorem fileOf_eq_missing_iff {key : String} {source : Option Path} :
    fileOf room requireFile path values = .error (.failure (.settingMissing key source)) ↔
      requireFile = true ∧ isBlankValue (valueOf values filePath) = true ∧ key = filePath ∧
        source = some path := by
  unfold fileOf
  cases requireFile with
  | false =>
    simpa using supplied_givenPath (supplied_pathOf _ _) key source
  | true =>
    rw [if_pos rfl, eq_true rfl, true_and, ← required_eq_missing_iff (supplied_pathOf _)]
    exact map_eq_error

theorem exists_fileOf_iff (homes : Homes) (hroom : 0 < room filePath) :
    (∃ file, fileOf room requireFile path values = .ok file) ↔
      (requireFile = true → isBlankValue (valueOf values filePath) = false) ∧
        Legible homes room filePath (valueOf values filePath) := by
  unfold fileOf
  cases requireFile with
  | false =>
    simp only [Bool.false_eq_true, if_false, false_imp_iff, true_and,
      ← exists_pathOf_iff homes]
    unfold givenPath
    split
    · exact ⟨fun ⟨_, h⟩ => (map_eq_ok.1 h).imp fun p hp => hp.1,
        fun ⟨p, hp⟩ => ⟨some p, map_eq_ok.2 ⟨p, hp, rfl⟩⟩⟩
    · next h =>
      refine ⟨fun _ => ?_, fun _ => ⟨none, rfl⟩⟩
      rw [pathOf_eq, displayError?_of_not_truthy hroom (Bool.eq_false_iff.2 h)]
      exact ⟨_, rfl⟩
  | true =>
    rw [if_pos rfl, ← exists_pathOf_iff homes, eq_self, true_imp_iff, ← exists_required_iff]
    exact ⟨fun ⟨_, h⟩ => (map_eq_ok.1 h).imp fun p hp => hp.1,
      fun ⟨p, hp⟩ => ⟨some p, map_eq_ok.2 ⟨p, hp, rfl⟩⟩⟩

/-- The settings that are needed, in the order in which they are looked at. -/
def required (requireFile : Bool) : List String :=
  if requireFile then [repoPath, serverHome, filePath, timeoutSeconds]
  else [repoPath, serverHome, timeoutSeconds]

/-- The paths that are read before the setting is looked at. -/
def pathsBefore (name : String) : List String :=
  [repoPath, serverHome, filePath].takeWhile (· ≠ name)

/-- A sequence whose second step fails in a way that does not depend on the first. -/
theorem bind_eq_error_iff_of_forall {ε α β : Type} {m : Except ε α} {f : α → Except ε β} {e : ε}
    {P : Prop} (hf : ∀ a, f a = .error e ↔ P) :
    m >>= f = .error e ↔ m = .error e ∨ (∃ a, m = .ok a) ∧ P := by
  simp only [bind_eq_error, hf, exists_and_right]

theorem placesOf_eq_missing_iff {key : String} {source : Option Path} :
    placesOf homes room requireFile path values = .error (.failure (.settingMissing key source)) ↔
      require values repoPath path >>= homePathOf homes (room repoPath) =
          .error (.failure (.settingMissing key source)) ∨
        (∃ repo, require values repoPath path >>= homePathOf homes (room repoPath) = .ok repo) ∧
          (require values serverHome path >>= homePathOf homes (room serverHome) =
              .error (.failure (.settingMissing key source)) ∨
            (∃ home,
              require values serverHome path >>= homePathOf homes (room serverHome) = .ok home) ∧
              fileOf room requireFile path values =
                .error (.failure (.settingMissing key source))) := by
  refine bind_eq_error_iff_of_forall fun repo => ?_
  refine bind_eq_error_iff_of_forall fun home => ?_
  rw [bind_eq_error]
  refine or_iff_left ?_
  rintro ⟨file, -, ⟨⟩⟩

theorem exists_placesOf_iff :
    (∃ places, placesOf homes room requireFile path values = .ok places) ↔
      (∃ repo, require values repoPath path >>= homePathOf homes (room repoPath) = .ok repo) ∧
        (∃ home,
          require values serverHome path >>= homePathOf homes (room serverHome) = .ok home) ∧
          ∃ file, fileOf room requireFile path values = .ok file := by
  unfold placesOf
  constructor
  · rintro ⟨places, h⟩
    obtain ⟨repo, hrepo, h⟩ := bind_eq_ok.1 h
    obtain ⟨home, hhome, h⟩ := bind_eq_ok.1 h
    obtain ⟨file, hfile, -⟩ := bind_eq_ok.1 h
    exact ⟨⟨repo, hrepo⟩, ⟨home, hhome⟩, file, hfile⟩
  · rintro ⟨⟨repo, hrepo⟩, ⟨home, hhome⟩, file, hfile⟩
    rw [hrepo, hhome, hfile]
    exact ⟨_, rfl⟩

/-- What comes behind the timeout needs no value. -/
theorem ofValues_eq_missing_iff_steps {key : String} {source : Option Path} :
    ofValues homes room requireFile path values = .error (.failure (.settingMissing key source)) ↔
      placesOf homes room requireFile path values =
          .error (.failure (.settingMissing key source)) ∨
        (∃ places, placesOf homes room requireFile path values = .ok places) ∧
          require values timeoutSeconds path >>= timeoutOf (room timeoutSeconds) =
            .error (.failure (.settingMissing key source)) := by
  rw [ofValues_eq]
  refine bind_eq_error_iff_of_forall fun places => ?_
  rw [bind_eq_error]
  refine or_iff_left ?_
  rintro ⟨timeout, -, hrest⟩
  refine (Supplied.bind ?_ fun data => .bind ?_ fun java => .bind ?_ fun language => .ok _)
    _ _ hrest
  · exact supplied_givenPath (supplied_homePathOf homes _ _)
  · exact supplied_givenText _ _ _
  · exact supplied_givenText _ _ _

section Search

variable {blank : String → Bool} {P : String → Prop} {first key : String}
  {needed paths : List String}

/-- What comes before a setting other than the first path is the first path, and what comes before
it among the others. -/
theorem forall_before_cons (hne : first ≠ key) :
    (∀ name ∈ (first :: paths).takeWhile (· ≠ key), P name) ↔
      P first ∧ ∀ name ∈ paths.takeWhile (· ≠ key), P name := by
  rw [List.takeWhile_cons_of_pos (by simpa using hne), List.forall_mem_cons]

/-- A path that is needed: it is the first setting without a value, or it is read and the first one
is found among the others. -/
theorem find?_before_cons (hfirst : first ∉ needed) :
    ((first :: needed).find? blank = some key ∧
        ∀ name ∈ (first :: paths).takeWhile (· ≠ key), P name) ↔
      blank first = true ∧ key = first ∨ (blank first = false ∧ P first) ∧
        needed.find? blank = some key ∧ ∀ name ∈ paths.takeWhile (· ≠ key), P name := by
  cases hblank : blank first with
  | true =>
    rw [List.find?_cons_of_pos hblank, Option.some.injEq]
    constructor
    · rintro ⟨rfl, -⟩
      exact .inl ⟨rfl, rfl⟩
    · rintro (⟨-, rfl⟩ | ⟨⟨⟨⟩, -⟩, -⟩)
      simp
  | false =>
    rw [List.find?_cons_of_neg (by simp [hblank])]
    constructor
    · rintro ⟨hfind, h⟩
      have hne : first ≠ key := fun h => hfirst (h ▸ List.mem_of_find?_eq_some hfind)
      obtain ⟨hread, h⟩ := (forall_before_cons hne).1 h
      exact .inr ⟨⟨rfl, hread⟩, hfind, h⟩
    · rintro (⟨⟨⟩, -⟩ | ⟨⟨-, hread⟩, hfind, h⟩)
      have hne : first ≠ key := fun h => hfirst (h ▸ List.mem_of_find?_eq_some hfind)
      exact ⟨hfind, (forall_before_cons hne).2 ⟨hread, h⟩⟩

/-- A path that is read but not needed: the first setting without a value is found among the
others. -/
theorem find?_before_skip (hfirst : first ∉ needed) :
    (needed.find? blank = some key ∧
        ∀ name ∈ (first :: paths).takeWhile (· ≠ key), P name) ↔
      P first ∧ needed.find? blank = some key ∧
        ∀ name ∈ paths.takeWhile (· ≠ key), P name := by
  rw [← and_left_comm]
  refine and_congr_right fun hfind => forall_before_cons fun h => hfirst ?_
  exact h ▸ List.mem_of_find?_eq_some hfind

/-- A setting with no path left before it. -/
theorem find?_before_last :
    ([first].find? blank = some key ∧ ∀ name ∈ ([] : List String).takeWhile (· ≠ key), P name) ↔
      blank first = true ∧ key = first := by
  cases hblank : blank first <;> simp [hblank, eq_comm]

end Search

/-- The setting that is named is the first one without a value, provided that the paths before it
can be read. -/
theorem ofValues_eq_missing_iff (hroom : 0 < room filePath) {key : String}
    {source : Option Path} :
    ofValues homes room requireFile path values = .error (.failure (.settingMissing key source)) ↔
      source = some path ∧
        (required requireFile).find? (fun name => isBlankValue (valueOf values name)) = some key ∧
        ∀ name ∈ pathsBefore key, Legible homes room name (valueOf values name) := by
  have hrepo : repoPath ≠ filePath := by decide
  have hserver : serverHome ≠ filePath := by decide
  rw [ofValues_eq_missing_iff_steps, placesOf_eq_missing_iff, exists_placesOf_iff,
    required_eq_missing_iff (supplied_homePathOf homes _),
    required_eq_missing_iff (supplied_homePathOf homes _), fileOf_eq_missing_iff,
    required_eq_missing_iff (supplied_timeoutOf _), exists_required_iff, exists_required_iff,
    exists_homePathOf_iff hrepo, exists_homePathOf_iff hserver, exists_fileOf_iff homes hroom]
  unfold required pathsBefore
  -- from here on the two sides differ in the order of what is said only
  cases requireFile with
  | true =>
    rw [if_pos rfl, find?_before_cons (by decide), find?_before_cons (by decide),
      find?_before_cons (by decide), find?_before_last]
    simp [and_or_left, and_assoc, and_left_comm, and_comm, or_assoc]
  | false =>
    rw [if_neg Bool.false_ne_true, find?_before_cons (by decide), find?_before_cons (by decide),
      find?_before_skip (by decide), find?_before_last]
    simp [and_or_left, and_assoc, and_left_comm, and_comm, or_assoc]

end Values

/-! ## Loading -/

theorem load_of_loadTable {s : Source} {table : Value.Table} (h : loadTable s = .ok table)
    (overrides : Value.Table) (requireFile : Bool) :
    load s overrides requireFile =
      ofValues s.homes s.room.shown requireFile (configFile s)
        (merge overrides (flatten table)) := by
  rw [load, h]
  rfl

/-- Where the effective values are the same, so is what loading ends in. -/
theorem load_congr {s₁ s₂ : Source} {table₁ table₂ overrides₁ overrides₂ : Value.Table}
    (hhomes : s₁.homes = s₂.homes) (hroom : s₁.room.shown = s₂.room.shown)
    (hfile : configFile s₁ = configFile s₂)
    (h₁ : loadTable s₁ = .ok table₁) (h₂ : loadTable s₂ = .ok table₂)
    (hnodup₁ : (Fields.names overrides₁).Nodup) (hnodup₂ : (Fields.names overrides₂).Nodup)
    (h : ∀ name ∈ names,
      effective overrides₁ table₁ name = effective overrides₂ table₂ name)
    (requireFile : Bool) : load s₁ overrides₁ requireFile = load s₂ overrides₂ requireFile := by
  rw [load_of_loadTable h₁, load_of_loadTable h₂, hhomes, hroom, hfile]
  refine ofValues_congr fun name hname => ?_
  rw [valueOf_merge hnodup₁ _ hname, valueOf_merge hnodup₂ _ hname, h name hname]

theorem load_eq_missing_iff {s : Source} {table overrides : Value.Table}
    (htable : loadTable s = .ok table) (hnodup : (Fields.names overrides).Nodup)
    {requireFile : Bool} {key : String} {source : Option Path} :
    load s overrides requireFile = .error (.failure (.settingMissing key source)) ↔
      source = some (configFile s) ∧
        (required requireFile).find? (fun name => isBlankValue (effective overrides table name)) =
          some key ∧
        ∀ name ∈ pathsBefore key,
          Legible s.homes s.room.shown name (effective overrides table name) := by
  have hvalue : ∀ name ∈ names, valueOf (merge overrides (flatten table)) name =
      effective overrides table name := fun name => valueOf_merge hnodup table
  have hrequired : ∀ name ∈ required requireFile, name ∈ names := by
    cases requireFile <;> decide
  have hpaths : ∀ name ∈ pathsBefore key, name ∈ names := fun name hname =>
    (by decide : [repoPath, serverHome, filePath] ⊆ names) ((List.takeWhile_sublist _).subset hname)
  rw [load_of_loadTable htable, ofValues_eq_missing_iff (s.room.shown_pos _)]
  refine and_congr_right' (and_congr ?_ (forall₂_congr fun name hname => ?_))
  · rw [List.find?_congr fun name hname => by rw [hvalue name (hrequired name hname)]]
  · rw [hvalue name (hpaths name hname)]

/-- If nothing keeps the paths from being read, the first setting without a value is named. -/
theorem load_eq_missing_iff_of_legible {s : Source} {table overrides : Value.Table}
    (htable : loadTable s = .ok table) (hnodup : (Fields.names overrides).Nodup)
    (hlegible : ∀ name ∈ [repoPath, serverHome, filePath],
      Legible s.homes s.room.shown name (effective overrides table name))
    {requireFile : Bool} {key : String} {source : Option Path} :
    load s overrides requireFile = .error (.failure (.settingMissing key source)) ↔
      source = some (configFile s) ∧
        (required requireFile).find? (fun name => isBlankValue (effective overrides table name)) =
          some key := by
  rw [load_eq_missing_iff htable hnodup]
  refine and_congr_right' (and_iff_left fun name hname => ?_)
  exact hlegible name ((List.takeWhile_sublist _).subset hname)

end Settings

open Settings in
/-- **Loading settings depends on the effective values of the seven settings alone**, on the file
that is named in failures, on the home directories and on the calls that are left. A setting is said
to be missing if and only if it is the first one, among those that are needed, that has no value or
a text of blanks, and the paths before it can be read. If no path begins with a tilde and each can
be written out, the first setting without a value is always named, with the file. -/
theorem load_effective {s : Source} {table overrides : Toml.Value.Table}
    (htable : loadTable s = .ok table) (hnodup : (Fields.names overrides).Nodup)
    (requireFile : Bool) :
    let v := effective overrides table
    let missing := fun key source =>
      load s overrides requireFile = .error (.failure (.settingMissing key source))
    let first := (required requireFile).find? fun name => isBlankValue (v name)
    (∀ (s' : Source) (table' overrides' : Toml.Value.Table), s.homes = s'.homes →
      s.room.shown = s'.room.shown → configFile s = configFile s' → loadTable s' = .ok table' →
      (Fields.names overrides').Nodup →
      (∀ name ∈ names, v name = effective overrides' table' name) →
      load s overrides requireFile = load s' overrides' requireFile) ∧
    (∀ key source, missing key source ↔ source = some (configFile s) ∧ first = some key ∧
      ∀ name ∈ pathsBefore key, Legible s.homes s.room.shown name (v name)) ∧
    ((∀ name ∈ [repoPath, serverHome, filePath],
        displayError? (s.room.shown name) (v name) = none) →
      (∀ name ∈ [repoPath, serverHome], ¬ (Path.parse (v name).display).Tilded) →
      (∀ key source, missing key source ↔ source = some (configFile s) ∧ first = some key) ∧
      ((∃ key source, missing key source) ↔
        ∃ name ∈ required requireFile, isBlankValue (v name) = true)) := by
  intro v missing first
  refine ⟨fun s' table' overrides' hhomes hroom hfile htable' hnodup' h =>
      load_congr hhomes hroom hfile htable htable' hnodup hnodup' h requireFile,
    fun key source => load_eq_missing_iff htable hnodup, fun hwritten htilde => ?_⟩
  have hlegible : ∀ name ∈ [repoPath, serverHome, filePath],
      Legible s.homes s.room.shown name (v name) := by
    intro name hname
    refine ⟨hwritten name hname, fun hne => ?_⟩
    have hhome : name ∈ [repoPath, serverHome] := by
      simpa [hne] using hname
    have hread : Legible s.homes s.room.shown name (v name) :=
      legible_of_not_tilded (hwritten name hname) (htilde name hhome)
    exact hread.home hne
  have hmissing : ∀ key source,
      missing key source ↔ source = some (configFile s) ∧ first = some key := fun key source =>
    load_eq_missing_iff_of_legible htable hnodup hlegible
  refine ⟨hmissing, ?_⟩
  simp only [hmissing, exists_eq_left]
  exact Option.isSome_iff_exists.symm.trans List.find?_isSome

/-! ## Samples -/

/-- The text as the usual file, and nowhere else to look. -/
def writtenSource (text : String) : Settings.Source :=
  { disk := { tree := .dir [(Settings.defaultName, .file (Text.Utf8.encode text.toList))],
              workingDir := [] },
    homes := ⟨"/", []⟩ }

/-- A file without carriage returns is read as it was written. -/
theorem loadTable_writtenSource {text : String} {table : Toml.Value.Table}
    (hlines : Text.universalNewlines text.toList = text.toList)
    (hread : Toml.read Settings.Room.usual.document text = .ok table) :
    Settings.loadTable (writtenSource text) = .ok table := by
  have hbytes : (writtenSource text).disk.readBytes (Settings.configFile (writtenSource text)) =
      .ok (Text.Utf8.encode text.toList) := rfl
  have hroom : (writtenSource text).room = .usual := rfl
  rw [Settings.loadTable_of_readBytes hbytes, Settings.readTable,
    Settings.readText_of_readBytes hbytes, Text.Utf8.decode_encode]
  simp [hlines, hroom, Settings.parseTable, hread]

/-- The table is the one that a file with nothing but the path of the repository writes. -/
def isSampleTable : Except Toml.ReadError Toml.Value.Table → Bool
  | .ok [("repo", .table [("path", .text t)])] => t == Text.ofString "/work/repo"
  | _ => false

theorem sample_table :
    Settings.loadTable (writtenSource "repo.path = \"/work/repo\"\n") =
      .ok [("repo", .table [("path", .text "/work/repo")])] := by
  refine loadTable_writtenSource (by decide) ?_
  have hread : isSampleTable (Toml.read Settings.Room.usual.document
      "repo.path = \"/work/repo\"\n") = true := by
    decide +kernel
  unfold isSampleTable at hread
  split at hread
  · next t h => rw [h, eq_of_beq hread]
  · cases hread

/-- The same path is given once by a file and once by an override. Either way it is where the server
is installed that is missing. -/
theorem sample_effective :
    let written := writtenSource "repo.path = \"/work/repo\"\n"
    let overrides := [(Settings.repoPath, Toml.Value.text "/work/repo"), ("other", .int 1)]
    Settings.loadTable written = .ok [("repo", .table [("path", .text "/work/repo")])] ∧
      Settings.loadTable bareSource = .ok [] ∧
      Settings.load written [(Settings.timeoutSeconds, .absent)] true =
        Settings.load bareSource overrides true ∧
      Settings.load bareSource overrides true =
        .error (.failure (.settingMissing Settings.serverHome
          (some (Settings.configFile bareSource)))) := by
  intro written overrides
  have htable : Settings.loadTable bareSource = .ok [] := rfl
  have hnodup : (Fields.names overrides).Nodup := by decide
  refine ⟨sample_table, htable, ?_, ?_⟩
  · have hnone : (Fields.names [(Settings.timeoutSeconds, Toml.Value.absent)]).Nodup := by decide
    obtain ⟨hsame, -⟩ := load_effective sample_table hnone true
    refine hsame bareSource [] overrides rfl rfl rfl htable hnodup ?_
    simp only [Settings.names, List.forall_mem_cons]
    exact ⟨rfl, rfl, rfl, rfl, rfl, rfl, rfl, by simp⟩
  · obtain ⟨-, -, hfirst⟩ := load_effective htable hnodup true
    refine ((hfirst (by decide) ?_).1 _ _).2 ⟨rfl, by decide⟩
    simp only [List.forall_mem_cons]
    refine ⟨fun htilde => absurd htilde.1 (by decide), ?_, by simp⟩
    have hparts :
        (Path.parse (Settings.effective overrides [] Settings.serverHome).display).parts =
          [Text.ofString "None"] := by decide
    exact Path.not_tilded hparts (by decide)

/-- The least integer that is never written out. -/
def longInteger : ℤ :=
  (Nat.pow 10 4300 : ℕ)

theorem isLongInteger_longInteger : Toml.Value.isLongInteger longInteger = true := by
  rw [Toml.Value.isLongInteger, longInteger]
  generalize Nat.pow 10 4300 = n
  simp

theorem displayError?_longInteger {room : Nat} (hroom : 0 < room) :
    Settings.displayError? room (.int longInteger) = some .longInteger := by
  obtain ⟨room, rfl⟩ := Nat.exists_eq_add_one.2 hroom
  have hint : Settings.displayError? (room + 1) (.int longInteger) =
      (Toml.Value.int longInteger).literalError? (room + 1) := rfl
  rw [hint, Toml.Value.literalError?, isLongInteger_longInteger]
  rfl

/-- A path that is an integer of too many digits is converted before it is found out that another
setting has no value. -/
theorem long_path_hides_missing :
    let overrides := [(Settings.repoPath, Toml.Value.int longInteger),
      (Settings.timeoutSeconds, .int 5)]
    Settings.loadTable bareSource = .ok [] ∧
      (Settings.required false).find?
          (fun name => Settings.isBlankValue (Settings.effective overrides [] name)) =
        some Settings.serverHome ∧
      Settings.load bareSource overrides false = .error (.stray .longInteger) := by
  intro overrides
  have htable : Settings.loadTable bareSource = .ok [] := rfl
  refine ⟨htable, rfl, ?_⟩
  have htext : Settings.pathOf (bareSource.room.shown Settings.repoPath) (.int longInteger) =
      .error (.stray .longInteger) := by
    rw [Settings.pathOf_eq, displayError?_longInteger (bareSource.room.shown_pos _)]
    rfl
  have hvalue : Settings.valueOf (Settings.merge overrides (Settings.flatten []))
      Settings.repoPath = .int longInteger := rfl
  rw [Settings.load_of_loadTable htable]
  simp [Settings.ofValues, Settings.require, Settings.isBlankValue, hvalue, Settings.homePathOf,
    htext, bind, Except.bind]

end SymbolAtlas
