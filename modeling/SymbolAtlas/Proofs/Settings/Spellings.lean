import SymbolAtlas.Proofs.Settings.Effective

/-!
# The two spellings of a setting

The dotted name of a setting may stand in a table as a whole, or part by part in tables within
tables. For a value that is no table the two mean the same. A table under the whole name is a value
like any other, but one that is reached part by part is none.

* `Settings.nest` — a value in tables within tables;
* `Settings.Spellings` — a table without a setting, and the same one with it in either spelling;
* `Settings.lookup_flat`, `Settings.lookup_nested` — what is looked up in the two;
* `load_spellings` — what loading makes of them.
-/

namespace SymbolAtlas

namespace Settings

open Toml

/-- A value at the end of the parts of a name, in tables that hold nothing else. -/
def nest (v : Value) : List String → Value
  | [] => v
  | part :: parts => .table [(part, nest v parts)]

theorem descend_nest (v : Value) (parts : List String) : descend (nest v parts) parts = v := by
  induction parts with
  | nil => rfl
  | cons part parts ih => simp [nest, descend, Fields.get?, ih]

/-- A table with one more value, wherever it stands. -/
structure Extends (table : Value.Table) (name : String) (v : Value) (table' : Value.Table) :
    Prop where
  new : Fields.get? table' name = some v
  others : ∀ other, other ≠ name → Fields.get? table' other = Fields.get? table other

/-- The value is a table. -/
def isTable : Value → Bool
  | .table _ => true
  | _ => false

/-- A table in which a setting is not there, neither as a whole nor in parts; the table with a value
under the whole name; and the table with the value at the end of the parts of the name. -/
structure Spellings (name : String) (v : Value) (table flat nested : Value.Table) : Prop where
  fresh : Fields.get? table name = none
  flat : Extends table name v flat
  nested : ∃ first rest, partsOf name = first :: rest ∧ Fields.get? table first = none ∧
    Extends table first (nest v rest) nested

/-! ## Looking up -/

/-- A look-up depends on the value under the whole name and on the one under the first part. -/
theorem lookup_congr {table table' : Value.Table} {name : String}
    (hname : Fields.get? table' name = Fields.get? table name)
    (hfirst : ∀ first ∈ (partsOf name).head?,
      Fields.get? table' first = Fields.get? table first) :
    lookup table' name = lookup table name := by
  unfold lookup
  rw [hname]
  cases hparts : partsOf name with
  | nil => rfl
  | cons first rest =>
    have hdescend : descend (.table table') (first :: rest) =
        descend (.table table) (first :: rest) := by
      rw [descend, descend, hfirst first (by simp [hparts])]
    rw [hdescend]

/-- No name of a setting is the first part of one. -/
theorem head?_partsOf_ne :
    ∀ name ∈ names, ∀ other ∈ names, (partsOf other).head? ≠ some name := by
  decide

/-- The settings differ in the first parts of their names. -/
theorem head?_partsOf_inj :
    ∀ name ∈ names, ∀ other ∈ names,
      (partsOf other).head? = (partsOf name).head? → other = name := by
  decide

variable {name other : String} {v : Value} {table flat nested : Value.Table}

theorem lookup_flat (h : Spellings name v table flat nested) : lookup flat name = v := by
  rw [lookup, h.flat.new]

/-- A table that is reached part by part is no value. -/
theorem lookup_nested (hname : name ∈ names) (h : Spellings name v table flat nested) :
    lookup nested name = if isTable v then .absent else v := by
  obtain ⟨first, rest, hparts, -, hnested⟩ := h.nested
  have hne : name ≠ first := by
    rintro rfl
    exact head?_partsOf_ne _ hname _ hname (by rw [hparts]; rfl)
  have hdescend : descend (.table nested) (partsOf name) = v := by
    rw [hparts, descend, hnested.new]
    exact descend_nest v rest
  rw [lookup, hnested.others _ hne, h.fresh, hdescend]
  cases v <;> rfl

theorem lookup_absent (h : Spellings name v table flat nested) : lookup table name = .absent := by
  obtain ⟨first, rest, hparts, hfirst, -⟩ := h.nested
  rw [lookup, h.fresh, hparts, descend, hfirst]

theorem lookup_flat_of_ne (hname : name ∈ names) (hother : other ∈ names) (hne : other ≠ name)
    (h : Spellings name v table flat nested) : lookup flat other = lookup table other := by
  refine lookup_congr (h.flat.others other hne) fun first hfirst => h.flat.others first ?_
  rintro rfl
  exact head?_partsOf_ne _ hname _ hother hfirst

theorem lookup_nested_of_ne (hname : name ∈ names) (hother : other ∈ names) (hne : other ≠ name)
    (h : Spellings name v table flat nested) : lookup nested other = lookup table other := by
  obtain ⟨first, rest, hparts, -, hnested⟩ := h.nested
  have hhead : (partsOf name).head? = some first := by rw [hparts]; rfl
  refine lookup_congr (hnested.others other ?_) fun part hpart => hnested.others part ?_
  · rintro rfl
    exact head?_partsOf_ne _ hother _ hname hhead
  · rintro rfl
    exact hne (head?_partsOf_inj _ hname _ hother (hpart.trans hhead.symm))

/-! ## Loading -/

/-- The two sources have the same home directories, as many calls are left for writing values out,
and the file is at the same path. -/
structure Source.Alike (s s' : Source) : Prop where
  homes : s.homes = s'.homes
  room : s.room.shown = s'.room.shown
  file : configFile s = configFile s'

theorem effective_congr {overrides overrides' table table' : Value.Table} {name : String}
    (hgiven : given overrides name = given overrides' name)
    (hlookup : lookup table name = lookup table' name) :
    effective overrides table name = effective overrides' table' name := by
  rw [effective, effective, hgiven, hlookup]

/-- A value that the overrides give is not looked up. -/
theorem effective_of_given {overrides : Value.Table} {name : String}
    (h : given overrides name ≠ none) (table table' : Value.Table) :
    effective overrides table name = effective overrides table' name := by
  obtain ⟨v, hv⟩ := Option.ne_none_iff_exists'.1 h
  rw [effective, effective, hv, Option.getD_some, Option.getD_some]

theorem given_put (overrides : Value.Table) (name other : String) (v : Value) :
    given (Fields.put overrides name v) other =
      if name = other then present? v else given overrides other := by
  rw [given, Fields.get?_put]
  split <;> rfl

end Settings

open Settings in
/-- **The two spellings of a setting mean the same, unless its value is a table.** Whatever else is
in the file and whatever the overrides are, settings are loaded with the same result from either
spelling of a value that is no table, or that an override replaces. A table part by part is as good
as left out, but under the whole name it is a value, as if it was an override. -/
theorem load_spellings {name : String} (hname : name ∈ names) {v : Toml.Value}
    {table flat nested : Toml.Value.Table} (h : Spellings name v table flat nested)
    {sFlat sNested : Source} (halike : sFlat.Alike sNested) (hflat : loadTable sFlat = .ok flat)
    (hnested : loadTable sNested = .ok nested) {overrides : Toml.Value.Table}
    (hnodup : (Fields.names overrides).Nodup) (requireFile : Bool) :
    (isTable v = false ∨ given overrides name ≠ none →
      load sFlat overrides requireFile = load sNested overrides requireFile) ∧
    ∀ s : Source, s.Alike sNested → loadTable s = .ok table →
      (isTable v = true →
        load sNested overrides requireFile = load s overrides requireFile) ∧
      (v ≠ .absent → given overrides name = none →
        load sFlat overrides requireFile = load s (Fields.put overrides name v) requireFile) := by
  refine ⟨fun hv => ?_, fun s hs htable => ⟨fun hv => ?_, fun hv hgiven => ?_⟩⟩
  · refine load_congr halike.homes halike.room halike.file hflat hnested hnodup hnodup
      (fun other hother => ?_) _
    by_cases hne : other = name
    · subst hne
      rcases hv with hv | hv
      · refine effective_congr rfl ?_
        rw [lookup_flat h, lookup_nested hname h, hv]
        rfl
      · exact effective_of_given hv flat nested
    · refine effective_congr rfl ?_
      rw [lookup_flat_of_ne hname hother hne h, lookup_nested_of_ne hname hother hne h]
  · refine (load_congr hs.homes hs.room hs.file htable hnested hnodup hnodup
      (fun other hother => ?_) _).symm
    refine effective_congr rfl ?_
    by_cases hne : other = name
    · rw [hne, lookup_absent h, lookup_nested hname h, hv]
      rfl
    · exact (lookup_nested_of_ne hname hother hne h).symm
  · refine load_congr (halike.homes.trans hs.homes.symm) (halike.room.trans hs.room.symm)
      (halike.file.trans hs.file.symm) hflat htable hnodup (Fields.nodup_names_put hnodup name v)
      (fun other hother => ?_) _
    by_cases hne : other = name
    · have hpresent : present? v = some v := by
        cases v with
        | absent => exact absurd rfl hv
        | _ => rfl
      rw [hne, effective, effective, hgiven, given_put, if_pos rfl, hpresent]
      exact lookup_flat h
    · refine effective_congr ?_ (lookup_flat_of_ne hname hother hne h)
      rw [given_put, if_neg fun heq => hne heq.symm]

/-! ## Samples -/

theorem bareSource_alike (text : String) : bareSource.Alike (writtenSource text) where
  homes := rfl
  room := rfl
  file := rfl

theorem writtenSource_alike (text text' : String) :
    (writtenSource text).Alike (writtenSource text') where
  homes := rfl
  room := rfl
  file := rfl

/-- A table where a path should be. -/
def sampleValue : Toml.Value :=
  .table [("a", .bool true)]

/-- The table under the whole name. -/
def flatSource : Settings.Source :=
  writtenSource "\"repo.path\" = \x7ba = true\x7d\n"

/-- The table at the end of the parts of the name. -/
def nestedSource : Settings.Source :=
  writtenSource "repo = \x7bpath = \x7ba = true\x7d\x7d\n"

/-- What is read is the table with the sample under the whole name. -/
def isFlatSample : Except Toml.ReadError Toml.Value.Table → Bool
  | .ok [("repo.path", .table [("a", .bool true)])] => true
  | _ => false

/-- What is read is the table with the sample at the end of the parts. -/
def isNestedSample : Except Toml.ReadError Toml.Value.Table → Bool
  | .ok [("repo", .table [("path", .table [("a", .bool true)])])] => true
  | _ => false

theorem loadTable_flatSource :
    Settings.loadTable flatSource = .ok [("repo.path", sampleValue)] := by
  refine loadTable_writtenSource (by decide) ?_
  have hread : isFlatSample (Toml.read Settings.Room.usual.document
      "\"repo.path\" = \x7ba = true\x7d\n") = true := by
    decide +kernel
  unfold isFlatSample at hread
  split at hread
  · next h => exact h
  · cases hread

theorem loadTable_nestedSource :
    Settings.loadTable nestedSource = .ok [("repo", .table [("path", sampleValue)])] := by
  refine loadTable_writtenSource (by decide) ?_
  have hread : isNestedSample (Toml.read Settings.Room.usual.document
      "repo = \x7bpath = \x7ba = true\x7d\x7d\n") = true := by
    decide +kernel
  unfold isNestedSample at hread
  split at hread
  · next h => exact h
  · cases hread

/-- A list of one field extends the empty table. -/
theorem extends_singleton (name : String) (v : Toml.Value) :
    Settings.Extends [] name v [(name, v)] where
  new := by simp [Fields.get?]
  others other hne := by simp [Fields.get?, hne.symm]

theorem sample_spelled :
    Settings.Spellings Settings.repoPath sampleValue [] [("repo.path", sampleValue)]
      [("repo", .table [("path", sampleValue)])] where
  fresh := rfl
  flat := extends_singleton _ _
  nested := ⟨"repo", ["path"], by decide, rfl, extends_singleton _ _⟩

/-- An override makes up for the difference. Without one the table part by part is left out, and the
table under the whole name is taken as an override would be. -/
theorem sample_spellings :
    Settings.loadTable bareSource = .ok [] ∧
      Settings.load flatSource [(Settings.repoPath, .text "/work/repo")] true =
        Settings.load nestedSource [(Settings.repoPath, .text "/work/repo")] true ∧
      Settings.load nestedSource [] true = Settings.load bareSource [] true ∧
      Settings.load flatSource [] true =
        Settings.load bareSource [(Settings.repoPath, sampleValue)] true := by
  have hname : Settings.repoPath ∈ Settings.names := by decide
  have halike : flatSource.Alike nestedSource := writtenSource_alike _ _
  have hbare : bareSource.Alike nestedSource := bareSource_alike _
  have hempty : Settings.loadTable bareSource = .ok [] := rfl
  have hnone : (Fields.names ([] : Toml.Value.Table)).Nodup := List.nodup_nil
  have hone : (Fields.names [(Settings.repoPath, Toml.Value.text "/work/repo")]).Nodup := by decide
  obtain ⟨hsame, -⟩ := load_spellings hname sample_spelled halike loadTable_flatSource
    loadTable_nestedSource hone true
  obtain ⟨-, htable⟩ := load_spellings hname sample_spelled halike loadTable_flatSource
    loadTable_nestedSource hnone true
  obtain ⟨hleftOut, hput⟩ := htable bareSource hbare hempty
  refine ⟨hempty, hsame (.inr ?_), hleftOut rfl, hput ?_ rfl⟩
  · simp [Settings.given, Fields.get?, Settings.present?]
  · simp [sampleValue]

/-- With the table under the whole name it is another setting that is missing. -/
theorem flat_table_taken :
    Settings.Spellings Settings.repoPath sampleValue [] [("repo.path", sampleValue)]
        [("repo", .table [("path", sampleValue)])] ∧
      Settings.loadTable flatSource = .ok [("repo.path", sampleValue)] ∧
      Settings.loadTable nestedSource = .ok [("repo", .table [("path", sampleValue)])] ∧
      Settings.load flatSource [] true = .error (.failure (.settingMissing Settings.serverHome
        (some (Settings.configFile flatSource)))) ∧
      Settings.load nestedSource [] true = .error (.failure (.settingMissing Settings.repoPath
        (some (Settings.configFile nestedSource)))) := by
  have hnone : (Fields.names ([] : Toml.Value.Table)).Nodup := List.nodup_nil
  refine ⟨sample_spelled, loadTable_flatSource, loadTable_nestedSource,
    (Settings.load_eq_missing_iff loadTable_flatSource hnone).2 ⟨rfl, by decide +kernel, ?_⟩,
    (Settings.load_eq_missing_iff loadTable_nestedSource hnone).2 ⟨rfl, by decide +kernel, ?_⟩⟩
  · intro name hname
    cases List.mem_singleton.1 hname
    have hparts : (Path.parse (Settings.effective [] [("repo.path", sampleValue)]
        Settings.repoPath).display).parts = ["\x7b'a': True\x7d"] := by decide
    exact Settings.legible_of_not_tilded rfl (Path.not_tilded hparts (by decide))
  · intro name hname
    cases hname

end SymbolAtlas
