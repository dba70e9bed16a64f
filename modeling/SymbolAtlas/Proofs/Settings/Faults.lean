import SymbolAtlas.Cli.Answer
import SymbolAtlas.Proofs.Outcomes

/-!
# The faults of loading settings

Loading settings ends in a failure of the configuration, except where something stands in the file,
or in a value, that no stage foresees. A failure of the configuration is told on the command line.

* `Fault.Within`, `Confined` — failures of the configuration, and stray faults with a reason;
* `Settings.Unreadable` — the reasons in the file, with `Settings.loadTable_confined`;
* `Settings.displayError?` — why a value is not written out, with `Settings.textOf_eq`;
* `Settings.Unusable` — the reasons in a value, with `Settings.ofValues_confined`;
* `Settings.load_confined` — loading as a whole;
* `Command.answer_of_settingsOf` — the command line, with `load_faults` for all of it.
-/

namespace SymbolAtlas

/-! ## Confined computations -/

/-- The failure is one of the configuration. -/
def Failure.IsConfig (f : Failure) : Prop :=
  .config ∈ f.kind :: f.kind.ancestors

theorem Failure.isConfig_of_kind {f : Failure} (h : f.kind = .config) : f.IsConfig := by
  simp [IsConfig, h]

theorem Failure.isConfig_settingMissing (key : String) (source : Option Path) :
    (settingMissing key source).IsConfig :=
  List.mem_cons_of_mem _ (List.mem_cons_self ..)

/-- The fault is a failure of the configuration, or a stray one with a reason. -/
inductive Fault.Within (E : Stray → Prop) : Fault → Prop
  | failure {f : Failure} (h : f.IsConfig) : Within E (.failure f)
  | stray {e : Stray} (h : E e) : Within E (.stray e)

/-- A computation ends in no other faults. -/
def Confined {α : Type} (E : Stray → Prop) (m : Except Fault α) : Prop :=
  ∀ fault, m = .error fault → fault.Within E

namespace Confined

variable {α β : Type} {E E' : Stray → Prop} {m : Except Fault α} {f : α → Except Fault β}

theorem ok (a : α) : Confined E (.ok a : Except Fault α) := by
  rintro fault ⟨⟩

theorem failure {g : Failure} (h : g.kind = .config) :
    Confined E (.error (.failure g) : Except Fault α) := by
  rintro fault ⟨⟩
  exact .failure (Failure.isConfig_of_kind h)

theorem stray {e : Stray} (h : E e) : Confined E (.error (.stray e) : Except Fault α) := by
  rintro fault ⟨⟩
  exact .stray h

theorem bind (hm : Confined E m) (hf : ∀ a, m = .ok a → Confined E (f a)) :
    Confined E (m >>= f) := by
  cases m with
  | error e => exact fun fault h => hm fault (by simpa [Bind.bind, Except.bind] using h)
  | ok a => exact hf a rfl

theorem map (hm : Confined E m) (g : α → β) : Confined E (g <$> m) := by
  cases m with
  | error e => exact fun fault h => hm fault (by simpa [Functor.map, Except.map] using h)
  | ok a => exact ok (g a)

theorem mono (h : Confined E m) (hE : ∀ e, E e → E' e) : Confined E' m := by
  intro fault hfault
  cases h fault hfault with
  | failure hconfig => exact .failure hconfig
  | stray he => exact .stray (hE _ he)

end Confined

/-! ## Tildes -/

/-- The path begins with a tilde. -/
def Path.Tilded (p : Path) : Prop :=
  p.root = .here ∧ ∃ user rest, p.parts = (.char '~' :: user) :: rest

/-- Only a path that begins with a tilde needs a home directory. -/
theorem Path.tilded_of_expandHome {homes : Homes} {p : Path} {e : HomeError}
    (h : p.expandHome homes = .error e) : p.Tilded := by
  unfold Path.expandHome at h
  split at h
  · next user rest hroot hparts => exact ⟨hroot, user, rest, hparts⟩
  · cases h

namespace Settings

open Toml

/-! ## The file -/

/-- What is stray about a file, `depth` being how deeply its values may be nested. -/
inductive Unreadable (disk : Disk) (depth : Nat) (path : Path) : Stray → Prop
  /-- The path is too long to be looked at. -/
  | tooLong (h : disk.find path = .error .nameTooLong) :
      Unreadable disk depth path (.pathTooLong path)
  /-- The path holds the character NUL. -/
  | nul (h : disk.find path = .error .nul) : Unreadable disk depth path .nulInPath
  /-- The path has a surrogate that stands for no byte. -/
  | notEncodable (h : disk.find path = .error .notEncodable) :
      Unreadable disk depth path .notEncodable
  /-- The bytes are not UTF-8. -/
  | notUtf8 {bytes : List UInt8} (h : disk.readBytes path = .ok bytes)
      (hdecode : Text.Utf8.decode bytes = none) : Unreadable disk depth path .notUtf8
  /-- A decimal integer has too many digits. -/
  | longInteger {text : String} (h : disk.readText path = .ok text)
      (hread : Toml.read depth text = .error .longInteger) :
      Unreadable disk depth path .longInteger
  /-- Lists and tables are nested too deeply. -/
  | tooDeep {text : String} (h : disk.readText path = .ok text)
      (hread : Toml.read depth text = .error .tooDeep) : Unreadable disk depth path .tooDeep

theorem mustExist_confined (disk : Disk) (depth : Nat) (path : Path) :
    Confined (Unreadable disk depth path) (mustExist disk path) := by
  unfold mustExist Disk.isFile Disk.look?
  cases hfind : disk.find path with
  | ok t =>
    cases t with
    | file bytes => exact .ok ()
    | _ => exact .failure rfl
  | error e =>
    cases e with
    | nameTooLong => exact .stray (.tooLong hfind)
    | _ => exact .failure rfl

theorem parseTable_confined {disk : Disk} {depth : Nat} {path : Path} {text : String}
    (h : disk.readText path = .ok text) :
    Confined (Unreadable disk depth path) (parseTable depth path text) := by
  unfold parseTable
  cases hread : Toml.read depth text with
  | ok table => exact .ok table
  | error e =>
    cases e with
    | longInteger => exact .stray (.longInteger h hread)
    | tooDeep => exact .stray (.tooDeep h hread)
    | malformed left => exact .failure rfl
    | conflict key => exact .failure rfl

/-- A text that cannot be had is not UTF-8, or its bytes cannot be had. -/
theorem bytes_of_readText {disk : Disk} {path : Path} {e : TextError}
    (h : disk.readText path = .error e) :
    (∃ bytes, e = .notUtf8 ∧ disk.readBytes path = .ok bytes ∧ Text.Utf8.decode bytes = none) ∨
      ∃ a, e = .access a ∧ disk.readBytes path = .error a := by
  unfold Disk.readText at h
  split at h
  · next a ha =>
    cases h
    exact .inr ⟨a, rfl, ha⟩
  · next bytes hbytes =>
    split at h
    · next hdecode =>
      cases h
      exact .inl ⟨bytes, rfl, hbytes, hdecode⟩
    · cases h

/-- Bytes that cannot be had, although the path does not name a directory, cannot be found. -/
theorem find_of_readBytes {disk : Disk} {path : Path} {e : AccessError}
    (h : disk.readBytes path = .error e) (hdir : e ≠ .isDirectory) : disk.find path = .error e := by
  unfold Disk.readBytes at h
  split at h
  · cases h
  · cases h
    contradiction
  · next e' he =>
    cases h
    exact he

theorem readTable_confined (disk : Disk) (depth : Nat) (path : Path) :
    Confined (Unreadable disk depth path) (readTable disk depth path) := by
  unfold readTable
  cases htext : disk.readText path with
  | ok text => exact parseTable_confined htext
  | error e =>
    obtain ⟨bytes, rfl, hbytes, hdecode⟩ | ⟨a, rfl, hbytes⟩ := bytes_of_readText htext
    · exact .stray (.notUtf8 hbytes hdecode)
    · cases a with
      | missing => exact .ok []
      | nul => exact .stray (.nul (find_of_readBytes hbytes (by simp)))
      | notEncodable => exact .stray (.notEncodable (find_of_readBytes hbytes (by simp)))
      | _ => exact .failure rfl

theorem loadTable_confined (s : Source) :
    Confined (Unreadable s.disk s.room.document (configFile s)) (loadTable s) := by
  have hread := readTable_confined s.disk s.room.document (configFile s)
  unfold loadTable
  dsimp only
  split
  · exact .bind (mustExist_confined s.disk _ (configFile s)) fun _ _ => hread
  · exact hread

/-! ## The values -/

/-- Why a value is not written as running text, `room` calls being left: a text and a moment always
are. -/
def displayError? (room : Nat) (v : Value) : Option LiteralError :=
  match v with
  | .text _ => none
  | .moment _ => none
  | v => v.literalError? room

theorem literalOf_eq (room : Nat) (v : Value) :
    literalOf room v =
      (v.literalError? room).elim (.ok v.literal) fun e => .error (.stray (.ofLiteral e)) := by
  unfold literalOf
  cases v.literalError? room <;> rfl

theorem textOf_eq (room : Nat) (v : Value) :
    textOf room v =
      (displayError? room v).elim (.ok v.display) fun e => .error (.stray (.ofLiteral e)) := by
  cases v with
  | text t => rfl
  | moment m => rfl
  | _ =>
    simp only [textOf, literalOf_eq, displayError?]
    cases Value.literalError? room _ <;> rfl

section Value

variable {E : Stray → Prop} {room : Nat} {v : Value}

/-- What may not be written out ends in a stray fault at worst. -/
theorem written_confined {α : Type} {why : Option LiteralError}
    (hwhy : ∀ e, why = some e → E (.ofLiteral e)) (shown : α) :
    Confined E (why.elim (.ok shown) fun e => .error (.stray (.ofLiteral e))) := by
  cases why with
  | none => exact .ok shown
  | some e => exact .stray (hwhy e rfl)

theorem textOf_confined (h : ∀ e, displayError? room v = some e → E (.ofLiteral e)) :
    Confined E (textOf room v) := by
  rw [textOf_eq]
  exact written_confined h v.display

theorem literalOf_confined (h : ∀ e, v.literalError? room = some e → E (.ofLiteral e)) :
    Confined E (literalOf room v) := by
  rw [literalOf_eq]
  exact written_confined h v.literal

theorem pathOf_confined (h : ∀ e, displayError? room v = some e → E (.ofLiteral e)) :
    Confined E (pathOf room v) :=
  (textOf_confined h).map Path.parse

theorem givenText_confined (h : ∀ e, displayError? room v = some e → E (.ofLiteral e))
    (default : Text) : Confined E (givenText room v default) := by
  unfold givenText
  split
  · exact textOf_confined h
  · exact .ok _

theorem givenPath_confined {read : Value → Except Fault Path} (h : Confined E (read v)) :
    Confined E (givenPath read v) := by
  unfold givenPath
  split
  · exact h.map some
  · exact .ok _

theorem numberOf_confined (hlarge : ∀ n, v = .int n → Binary64.ofInt? n = none → E .tooLarge) :
    Confined E (numberOf v) := by
  unfold numberOf
  split
  · split
    · exact .ok _
    · next h => exact .stray (hlarge _ rfl h)
  · exact .ok _
  · exact .ok _
  · exact .ok _

theorem timeoutOf_confined (hliteral : ∀ e, v.literalError? room = some e → E (.ofLiteral e))
    (hlarge : ∀ n, v = .int n → Binary64.ofInt? n = none → E .tooLarge) :
    Confined E (timeoutOf room v) := by
  refine .bind (numberOf_confined hlarge) fun x _ => ?_
  cases x with
  | none => exact .bind (literalOf_confined hliteral) fun _ _ => .failure rfl
  | some x =>
    dsimp only
    split
    · exact .bind (literalOf_confined hliteral) fun _ _ => .failure rfl
    · exact .ok x

theorem require_confined {values : Value.Table} {name : String} {path : Path} :
    Confined E (require values name path) := by
  unfold require
  dsimp only
  split
  · rintro fault ⟨⟩
    exact .failure (Failure.isConfig_settingMissing ..)
  · exact .ok _

theorem eq_of_require {values : Value.Table} {name : String} {path : Path}
    (h : require values name path = .ok v) : v = valueOf values name := by
  unfold require at h
  dsimp only at h
  split at h
  · cases h
  · exact (Except.ok.inj h).symm

end Value

/-- What is stray about a value among the settings. -/
inductive Unusable (homes : Homes) (room : String → Nat) (values : Value.Table) : Stray → Prop
  /-- A value is not written as running text. -/
  | text {name : String} {e : LiteralError} (hname : name ∈ names)
      (h : displayError? (room name) (valueOf values name) = some e) :
      Unusable homes room values (.ofLiteral e)
  /-- The timeout is not written for a message. -/
  | literal {e : LiteralError}
      (h : (valueOf values timeoutSeconds).literalError? (room timeoutSeconds) = some e) :
      Unusable homes room values (.ofLiteral e)
  /-- The timeout is an integer that is too large for a floating-point number. -/
  | tooLarge {n : Int} (h : valueOf values timeoutSeconds = .int n)
      (hlarge : Binary64.ofInt? n = none) : Unusable homes room values .tooLarge
  /-- A path begins with a tilde, and there is no home directory for it. -/
  | home {name : String} {e : HomeError} (hname : name ∈ [repoPath, serverHome, dataDir])
      (htilde : (Path.parse (valueOf values name).display).Tilded)
      (h : (Path.parse (valueOf values name).display).expandHome homes = .error e) :
      Unusable homes room values (.ofHome e)

section Values

variable {homes : Homes} {room : String → Nat} {values : Value.Table} {name : String} {path : Path}

theorem eq_of_pathOf {room : Nat} {v : Value} {p : Path} (h : pathOf room v = .ok p) :
    p = Path.parse v.display := by
  rw [pathOf, textOf_eq] at h
  cases hwhy : displayError? room v with
  | none =>
    rw [hwhy] at h
    exact (Except.ok.inj h).symm
  | some e =>
    rw [hwhy] at h
    cases h

theorem homePathOf_confined (hname : name ∈ [repoPath, serverHome, dataDir]) :
    Confined (Unusable homes room values)
      (homePathOf homes (room name) (valueOf values name)) := by
  have hmem : name ∈ names := (by decide : [repoPath, serverHome, dataDir] ⊆ names) hname
  refine .bind (pathOf_confined fun e => .text hmem) fun p hp => ?_
  obtain rfl := eq_of_pathOf hp
  cases hhome : (Path.parse (valueOf values name).display).expandHome homes with
  | ok q => exact .ok q
  | error e => exact .stray (.home hname (Path.tilded_of_expandHome hhome) hhome)

/-- The path of the file that is asked about, if there is one. -/
def fileOf (room : String → Nat) (requireFile : Bool) (path : Path) (values : Value.Table) :
    Except Fault (Option Path) :=
  if requireFile then some <$> (require values filePath path >>= pathOf (room filePath))
  else givenPath (pathOf (room filePath)) (valueOf values filePath)

/-- The settings that are looked at before the timeout. -/
def placesOf (homes : Homes) (room : String → Nat) (requireFile : Bool) (path : Path)
    (values : Value.Table) : Except Fault (Path × Path × Option Path) := do
  let repo ← require values repoPath path >>= homePathOf homes (room repoPath)
  let home ← require values serverHome path >>= homePathOf homes (room serverHome)
  let file ← fileOf room requireFile path values
  return (repo, home, file)

theorem ofValues_eq (requireFile : Bool) :
    ofValues homes room requireFile path values = (do
      let places ← placesOf homes room requireFile path values
      let timeout ← require values timeoutSeconds path >>= timeoutOf (room timeoutSeconds)
      let data ← givenPath (homePathOf homes (room dataDir)) (valueOf values dataDir)
      let java ← givenText (room javaExecutable) (valueOf values javaExecutable) "java"
      let language ← givenText (room languageId) (valueOf values languageId) "java"
      return {
        repoPath := places.1
        serverHome := places.2.1
        filePath := places.2.2
        timeout := .float timeout
        java := java
        dataDir := data
        languageId := language }) := by
  cases requireFile <;> simp [ofValues, placesOf, fileOf]

theorem requiredHome_confined (hname : name ∈ [repoPath, serverHome, dataDir]) :
    Confined (Unusable homes room values)
      (require values name path >>= homePathOf homes (room name)) := by
  refine .bind require_confined fun v hv => ?_
  obtain rfl := eq_of_require hv
  exact homePathOf_confined hname

theorem fileOf_confined (requireFile : Bool) :
    Confined (Unusable homes room values) (fileOf room requireFile path values) := by
  have hname : filePath ∈ names := by decide
  unfold fileOf
  split
  · refine Confined.map (.bind require_confined fun v hv => ?_) some
    obtain rfl := eq_of_require hv
    exact pathOf_confined fun e => .text hname
  · exact givenPath_confined (pathOf_confined fun e => .text hname)

theorem placesOf_confined (requireFile : Bool) :
    Confined (Unusable homes room values) (placesOf homes room requireFile path values) := by
  refine .bind (requiredHome_confined (by simp)) fun repo _ => ?_
  refine .bind (requiredHome_confined (by simp)) fun home _ => ?_
  exact .bind (fileOf_confined requireFile) fun file _ => .ok _

theorem ofValues_confined (requireFile : Bool) :
    Confined (Unusable homes room values) (ofValues homes room requireFile path values) := by
  rw [ofValues_eq]
  refine .bind (placesOf_confined requireFile) fun places _ => ?_
  refine .bind (.bind require_confined fun v hv => ?_) fun timeout _ => ?_
  · obtain rfl := eq_of_require hv
    exact timeoutOf_confined (fun e => .literal) fun _ => .tooLarge
  refine .bind (givenPath_confined (homePathOf_confined (by simp))) fun data _ => ?_
  refine .bind (givenText_confined (fun e => .text (by decide)) _) fun java _ => ?_
  exact .bind (givenText_confined (fun e => .text (by decide)) _) fun language _ => .ok _

/-- A path of the repository that is not written as running text ends it all: nothing is looked at
before. -/
theorem ofValues_of_unwritten {e : LiteralError} (hpresent : valueOf values repoPath ≠ .absent)
    (h : displayError? (room repoPath) (valueOf values repoPath) = some e) (requireFile : Bool) :
    ofValues homes room requireFile path values = .error (.stray (.ofLiteral e)) := by
  have hblank : isBlankValue (valueOf values repoPath) = false := by
    cases hv : valueOf values repoPath with
    | absent => exact absurd hv hpresent
    | text t => simp [hv, displayError?] at h
    | _ => rfl
  have hgiven : require values repoPath path = .ok (valueOf values repoPath) := by
    simp [require, hblank]
  have htext : textOf (room repoPath) (valueOf values repoPath) =
      .error (.stray (.ofLiteral e)) := by
    rw [textOf_eq, h]
    rfl
  rw [ofValues_eq, placesOf, hgiven]
  simp [homePathOf, pathOf, htext, bind, Except.bind, Except.map]

end Values

/-! ## Loading -/

/-- What is stray about settings that are loaded. -/
inductive Unforeseen (s : Source) (overrides : Value.Table) : Stray → Prop
  | file {e : Stray} (h : Unreadable s.disk s.room.document (configFile s) e) :
      Unforeseen s overrides e
  | value {table : Value.Table} {e : Stray} (htable : loadTable s = .ok table)
      (h : Unusable s.homes s.room.shown (merge overrides (flatten table)) e) :
      Unforeseen s overrides e

theorem load_confined (s : Source) (overrides : Value.Table) (requireFile : Bool) :
    Confined (Unforeseen s overrides) (load s overrides requireFile) := by
  refine .bind ((loadTable_confined s).mono fun _ => .file) fun table htable => ?_
  exact (ofValues_confined requireFile).mono fun _ => .value htable

section File

variable {s : Source} {bytes : List UInt8}

/-- A file that is there is read, whether it was named or not. -/
theorem loadTable_of_readBytes (h : s.disk.readBytes (configFile s) = .ok bytes) :
    loadTable s = readTable s.disk s.room.document (configFile s) := by
  have hexists : mustExist s.disk (configFile s) = .ok () := by
    unfold Disk.readBytes at h
    unfold mustExist Disk.isFile Disk.look?
    split at h
    · next hfind =>
      rw [hfind]
      rfl
    · cases h
    · cases h
  unfold loadTable
  dsimp only
  split
  · rw [hexists]
    rfl
  · rfl

theorem load_of_readTable {fault : Fault} (h : s.disk.readBytes (configFile s) = .ok bytes)
    (hread : readTable s.disk s.room.document (configFile s) = .error fault)
    (overrides : Value.Table) (requireFile : Bool) :
    load s overrides requireFile = .error fault := by
  unfold load
  rw [loadTable_of_readBytes h, hread]
  rfl

theorem readText_of_readBytes (h : s.disk.readBytes (configFile s) = .ok bytes) :
    s.disk.readText (configFile s) =
      (Text.Utf8.decode bytes).elim (.error .notUtf8)
        fun cs => .ok (String.ofList (Text.universalNewlines cs)) := by
  rw [Disk.readText, h]
  dsimp only
  cases Text.Utf8.decode bytes <;> rfl

theorem load_of_notUtf8 (h : s.disk.readBytes (configFile s) = .ok bytes)
    (hdecode : Text.Utf8.decode bytes = none) (overrides : Value.Table) (requireFile : Bool) :
    load s overrides requireFile = .error (.stray .notUtf8) := by
  refine load_of_readTable h ?_ overrides requireFile
  rw [readTable, readText_of_readBytes h, hdecode]
  rfl

theorem load_of_notParsed {cs : List Char} {fault : Fault}
    (h : s.disk.readBytes (configFile s) = .ok bytes) (hdecode : Text.Utf8.decode bytes = some cs)
    (hparse : parseTable s.room.document (configFile s)
      (String.ofList (Text.universalNewlines cs)) = .error fault)
    (overrides : Value.Table) (requireFile : Bool) :
    load s overrides requireFile = .error fault := by
  refine load_of_readTable h ?_ overrides requireFile
  rw [readTable, readText_of_readBytes h, hdecode]
  exact hparse

end File

end Settings

/-! ## The command line -/

/-- The command needs settings, made from the options and maybe with a file. -/
inductive Command.Needs : Command → QueryOptions → Bool → Prop
  | symbols (o : QueryOptions) : Needs (.symbols o) o true
  | chunks (o : QueryOptions) : Needs (.chunks o) o false
  | search (query : String) (o : QueryOptions) : Needs (.search query o) o false

/-- A command whose settings cannot be loaded does nothing but tell so. -/
theorem Command.answer_of_settingsOf {env : Environment} {c : Command} {o : QueryOptions}
    {requireFile : Bool} {fault : Fault} (hc : c.Needs o requireFile)
    (h : settingsOf env o requireFile = .error fault) : c.answer env = failed {} fault := by
  have houtcome : c.outcome env = failed {} fault := by
    cases hc <;> rw [outcome, h]
  rw [answer, houtcome]
  cases fault <;> rfl

open Settings in
/-- **Loading settings ends in settings, in a failure of the configuration, or in a stray fault for
which there is a reason in the file or in a value.** A file that is not UTF-8 is such a reason, and
so is one with an integer of too many digits or with too many levels, whatever else is given; and
so is a value for the path of the repository that has too many of them to be written out. The
failures are told on the command line, where the exit code is one. -/
theorem load_faults (s : Source) (overrides : Toml.Value.Table) (requireFile : Bool) :
    (∀ fault, load s overrides requireFile = .error fault →
      fault.Within (Unforeseen s overrides)) ∧
    (∀ bytes, s.disk.readBytes (configFile s) = .ok bytes →
      (Text.Utf8.decode bytes = none →
        load s overrides requireFile = .error (.stray .notUtf8)) ∧
      ∀ cs, Text.Utf8.decode bytes = some cs →
        (Toml.read s.room.document (String.ofList (Text.universalNewlines cs)) =
            .error .longInteger →
          load s overrides requireFile = .error (.stray .longInteger)) ∧
        (Toml.read s.room.document (String.ofList (Text.universalNewlines cs)) =
            .error .tooDeep →
          load s overrides requireFile = .error (.stray .tooDeep))) ∧
    (∀ table e, loadTable s = .ok table →
      let v := valueOf (merge overrides (flatten table)) repoPath
      v ≠ .absent → displayError? (s.room.shown repoPath) v = some e →
        load s overrides requireFile = .error (.stray (.ofLiteral e))) ∧
    ∀ env c o f, Command.Needs c o requireFile →
      Command.settingsOf env o requireFile = .error (.failure f) →
      (c.answer env).exitCode = 1 ∧ (c.answer env).message = some f.message ∧
        (c.answer env).stray = none ∧ (c.answer env).lines = [] := by
  refine ⟨load_confined s overrides requireFile, fun bytes hbytes => ⟨fun hdecode => ?_,
    fun cs hdecode => ⟨fun hread => ?_, fun hread => ?_⟩⟩, fun table e htable hpresent h => ?_,
    fun env c o f hc h => ?_⟩
  · exact load_of_notUtf8 hbytes hdecode overrides requireFile
  · exact load_of_notParsed hbytes hdecode (by rw [parseTable, hread]) overrides requireFile
  · exact load_of_notParsed hbytes hdecode (by rw [parseTable, hread]) overrides requireFile
  · rw [load, htable]
    exact ofValues_of_unwritten hpresent h requireFile
  · rw [Command.answer_of_settingsOf hc h]
    exact ⟨rfl, rfl, rfl, rfl⟩

/-- A disk whose usual configuration file holds one byte that is no UTF-8. -/
def latinDisk : Disk :=
  { tree := .dir [(Settings.defaultName, .file [0xff])], workingDir := [] }

/-- A file that is not UTF-8 ends in no failure of the configuration. -/
theorem latin_config_stray :
    Settings.load { disk := latinDisk, homes := ⟨"/", []⟩ } [] false = .error (.stray .notUtf8) :=
  rfl

end SymbolAtlas
