import SymbolAtlas.Proofs.Run.Teardown
import SymbolAtlas.Proofs.Session.Loss
import SymbolAtlas.Proofs.Settings.Faults

/-!
# The timeout of settings that are loaded

Settings are only loaded with a time to wait that is a number and neither zero nor below it. A
session takes such a time, unless it is the value that is no number: that one is not below zero, so
settings are loaded with it, but it is not above zero either, so no session is made with it.

* `Settings.timeoutOf_eq_ok_iff` — the times that are accepted;
* `Settings.Measured` — values that can be converted and written out;
* `Session.new_of_timeoutOf` — the sessions with a time that was accepted;
* `load_timeout` — the timeout of settings that are loaded, and what other ones lead to.
-/

namespace SymbolAtlas

/-- A number is above zero where it is not rejected for being zero or below, unless it is the value
that is no number. -/
theorem Binary64.isPositive_eq_true_iff {x : Binary64} :
    x.isPositive = true ↔ x.isNonpositive = false ∧ x ≠ .nan := by
  cases x <;> simp [isPositive, isNonpositive]

namespace Settings

open Toml

/-! ## Times that are accepted -/

theorem timeoutOf_eq_ok_iff {room : Nat} {v : Value} {x : Binary64} :
    timeoutOf room v = .ok x ↔ numberOf v = .ok (some x) ∧ x.isNonpositive = false := by
  unfold timeoutOf
  rw [bind_eq_ok]
  constructor
  · rintro ⟨y, hnumber, haccepted⟩
    cases y with
    | none =>
      obtain ⟨shown, -, hthrow⟩ := bind_eq_ok.1 haccepted
      cases hthrow
    | some y =>
      dsimp only at haccepted
      split at haccepted
      · obtain ⟨shown, -, hthrow⟩ := bind_eq_ok.1 haccepted
        cases hthrow
      · next hpositive =>
        cases haccepted
        exact ⟨hnumber, Bool.eq_false_iff.2 hpositive⟩
  · rintro ⟨hnumber, hpositive⟩
    refine ⟨some x, hnumber, ?_⟩
    dsimp only
    rw [if_neg (by simp [hpositive])]
    rfl

/-- The value can be converted, if it is an integer, and it can be written out. -/
structure Measured (room : Nat) (v : Value) : Prop where
  small : ∀ n, v = .int n → Binary64.ofInt? n ≠ none
  written : v.literalError? room = none

/-- A time that is rejected is rejected with a failure of the configuration. -/
theorem Measured.timeoutOf_confined {room : Nat} {v : Value} (h : Measured room v) :
    Confined (fun _ => False) (timeoutOf room v) :=
  Settings.timeoutOf_confined (by simp [h.written]) fun n hv hlarge => h.small n hv hlarge

end Settings

/-- A session takes a time above zero, and rejects the value that is no number. -/
theorem Session.new_of_timeoutOf {room : Nat} {v : Toml.Value} {x : Binary64}
    (h : Settings.timeoutOf room v = .ok x) :
    (x ≠ .nan → ∃ session, Session.new (.float x) = .ok session) ∧
    (x = .nan → Session.new (.float x) = .error (.failure
      (Invariant.never "invalid request timeout" [("value", .float x)]))) := by
  obtain ⟨-, hnonpositive⟩ := Settings.timeoutOf_eq_ok_iff.1 h
  refine ⟨fun hne => ?_, ?_⟩
  · have hpositive : Invariant.isPositive? (.float x) = some true :=
      congrArg some (Binary64.isPositive_eq_true_iff.2 ⟨hnonpositive, hne⟩)
    exact ⟨_, Session.new_of_positive hpositive⟩
  · rintro rfl
    rfl

namespace Settings

open Toml

/-! ## Loading -/

variable {homes : Homes} {room : String → Nat} {requireFile : Bool} {path : Path}
  {values : Value.Table}

/-- Settings carry the time that was accepted. -/
theorem timeout_of_ofValues {settings : ScanSettings}
    (h : ofValues homes room requireFile path values = .ok settings) :
    ∃ x, timeoutOf (room timeoutSeconds) (valueOf values timeoutSeconds) = .ok x ∧
      settings.timeout = .float x := by
  rw [ofValues_eq] at h
  obtain ⟨places, -, h⟩ := bind_eq_ok.1 h
  obtain ⟨x, htimeout, h⟩ := bind_eq_ok.1 h
  obtain ⟨data, -, h⟩ := bind_eq_ok.1 h
  obtain ⟨java, -, h⟩ := bind_eq_ok.1 h
  obtain ⟨language, -, h⟩ := bind_eq_ok.1 h
  obtain ⟨v, hv, htimeout⟩ := bind_eq_ok.1 htimeout
  obtain rfl := eq_of_require hv
  exact ⟨x, htimeout, by rw [← Except.ok.inj h]⟩

/-- Without a time that is accepted there are no settings. The fault is a failure of the
configuration, or a stray one of a setting that is looked at before. -/
theorem ofValues_rejects
    (hmeasured : Measured (room timeoutSeconds) (valueOf values timeoutSeconds))
    (h : ∀ x, timeoutOf (room timeoutSeconds) (valueOf values timeoutSeconds) ≠ .ok x) :
    ∃ fault, ofValues homes room requireFile path values = .error fault ∧
      fault.Within fun e => placesOf homes room requireFile path values = .error (.stray e) := by
  have hconfined :
      Confined (fun e => placesOf homes room requireFile path values = .error (.stray e))
        (ofValues homes room requireFile path values) := by
    rw [ofValues_eq]
    refine .bind (fun fault hfault => ?_) fun places _ =>
      .bind (.bind require_confined fun v hv => ?_) fun x hx => ?_
    · cases placesOf_confined requireFile fault hfault with
      | failure hconfig => exact .failure hconfig
      | stray _ => exact .stray hfault
    · obtain rfl := eq_of_require hv
      exact hmeasured.timeoutOf_confined.mono fun _ => False.elim
    · obtain ⟨v, hv, hx⟩ := bind_eq_ok.1 hx
      obtain rfl := eq_of_require hv
      exact absurd hx (h x)
  cases hload : ofValues homes room requireFile path values with
  | ok settings =>
    obtain ⟨x, hx, -⟩ := timeout_of_ofValues hload
    exact absurd hx (h x)
  | error fault => exact ⟨fault, rfl, hconfined fault hload⟩

/-- A timeout that is not accepted although everything before it is fine decides how it ends. -/
theorem ofValues_of_timeout {places : Path × Path × Option Path} {v : Value} {fault : Fault}
    (hplaces : placesOf homes room requireFile path values = .ok places)
    (hv : valueOf values timeoutSeconds = v) (hgiven : isBlankValue v = false)
    (htimeout : timeoutOf (room timeoutSeconds) v = .error fault) :
    ofValues homes room requireFile path values = .error fault := by
  have hrequire : require values timeoutSeconds path = .ok v := by
    simp [require, hv, hgiven]
  rw [ofValues_eq, hplaces, hrequire]
  simp only [bind, Except.bind, htimeout]

/-- An integer that is too large to be converted leads to a stray fault. -/
theorem timeoutOf_of_tooLarge {n : Int} (hlarge : Binary64.ofInt? n = none) (room : Nat) :
    timeoutOf room (.int n) = .error (.stray .tooLarge) := by
  simp [timeoutOf, numberOf, hlarge, bind, Except.bind]

/-- A list or a table that is not written out leads to a stray fault: its text is for a message. -/
theorem timeoutOf_of_unwritten {room : Nat} {v : Value} {e : LiteralError}
    (hnumber : numberOf v = .ok none) (h : v.literalError? room = some e) :
    timeoutOf room v = .error (.stray (.ofLiteral e)) := by
  simp [timeoutOf, literalOf, hnumber, h, bind, Except.bind]

end Settings

open Settings in
/-- **The timeout of settings that are loaded.** It is the number that the value writes, and a
session takes it, unless it is the value that is no number: that one is loaded, and the session
rejects it as something that should never happen. A value that is not a number above zero, and that
can be converted and written out, leads to a failure of the configuration, if no stray fault of a
setting that is looked at before comes first. An integer that cannot be converted leads to a stray
fault, and so does what is no number and cannot be written out. -/
theorem load_timeout (s : Source) (overrides : Toml.Value.Table) (requireFile : Bool)
    {table : Toml.Value.Table} (htable : loadTable s = .ok table) :
    let values := merge overrides (flatten table)
    let v := valueOf values timeoutSeconds
    (∀ settings, load s overrides requireFile = .ok settings →
      ∃ x, numberOf v = .ok (some x) ∧ settings.timeout = .float x ∧
        (x ≠ .nan → x.isPositive = true ∧
          ∃ session, Session.new settings.timeout = .ok session) ∧
        (x = .nan → Session.new settings.timeout = .error (.failure
          (Invariant.never "invalid request timeout" [("value", settings.timeout)])))) ∧
    (Measured (s.room.shown timeoutSeconds) v →
      (∀ x, numberOf v = .ok (some x) → x.isPositive = false ∧ x ≠ .nan) →
      ∃ fault, load s overrides requireFile = .error fault ∧
        fault.Within fun e =>
          placesOf s.homes s.room.shown requireFile (configFile s) values = .error (.stray e)) ∧
    ∀ places, placesOf s.homes s.room.shown requireFile (configFile s) values = .ok places →
      (∀ n, v = .int n → Binary64.ofInt? n = none →
        load s overrides requireFile = .error (.stray .tooLarge)) ∧
      ∀ e, isBlankValue v = false → numberOf v = .ok none →
        v.literalError? (s.room.shown timeoutSeconds) = some e →
        load s overrides requireFile = .error (.stray (.ofLiteral e)) := by
  intro values v
  have hload : load s overrides requireFile =
      ofValues s.homes s.room.shown requireFile (configFile s) values := by
    rw [load, htable]
    rfl
  rw [hload]
  refine ⟨fun settings hsettings => ?_, fun hmeasured hv => ?_,
    fun places hplaces => ⟨fun n hv hlarge => ?_, fun e hgiven hnumber hwhy => ?_⟩⟩
  · obtain ⟨x, hx, htimeout⟩ := timeout_of_ofValues hsettings
    obtain ⟨hnumber, hnonpositive⟩ := timeoutOf_eq_ok_iff.1 hx
    obtain ⟨htaken, hrejected⟩ := Session.new_of_timeoutOf hx
    rw [htimeout]
    exact ⟨x, hnumber, rfl,
      fun hne => ⟨Binary64.isPositive_eq_true_iff.2 ⟨hnonpositive, hne⟩, htaken hne⟩, hrejected⟩
  · refine ofValues_rejects hmeasured fun x hx => ?_
    obtain ⟨hnumber, hnonpositive⟩ := timeoutOf_eq_ok_iff.1 hx
    obtain ⟨hfalse, hne⟩ := hv x hnumber
    simp [Binary64.isPositive_eq_true_iff.2 ⟨hnonpositive, hne⟩] at hfalse
  · exact ofValues_of_timeout hplaces hv rfl (timeoutOf_of_tooLarge hlarge _)
  · exact ofValues_of_timeout hplaces rfl hgiven (timeoutOf_of_unwritten hnumber hwhy)

/-! ## Samples -/

/-- No file, and nowhere else to look. -/
def bareSource : Settings.Source :=
  { disk := bareDisk, homes := ⟨"/", []⟩ }

/-- What is needed for a search, with the given timeout. -/
def searchOverrides (timeout : Toml.Value) : Toml.Value.Table :=
  [(Settings.repoPath, .text "/work/repo"), (Settings.serverHome, .text "/opt/jdtls"),
    (Settings.timeoutSeconds, timeout)]

/-- Five seconds are loaded and taken, and five seconds less than none are rejected. -/
theorem sample_timeouts :
    Settings.loadTable bareSource = .ok [] ∧
      (∃ settings, Settings.load bareSource (searchOverrides (.int 5)) false = .ok settings ∧
        ∃ session, Session.new settings.timeout = .ok session) ∧
      Settings.Measured (bareSource.room.shown Settings.timeoutSeconds) (.int (-5)) ∧
      ∃ fault, Settings.load bareSource (searchOverrides (.int (-5))) false = .error fault := by
  have htable : Settings.loadTable bareSource = .ok [] := rfl
  have hmeasured : Settings.Measured (bareSource.room.shown Settings.timeoutSeconds) (.int (-5)) :=
    { small := by
        rintro n ⟨⟩
        decide +kernel
      written := by decide +kernel }
  refine ⟨htable, ?_, hmeasured, ?_⟩
  · obtain ⟨settings, hload⟩ :
        ∃ settings, Settings.load bareSource (searchOverrides (.int 5)) false = .ok settings :=
      ⟨_, rfl⟩
    obtain ⟨x, hnumber, -, htaken, -⟩ := (load_timeout _ _ false htable).1 settings hload
    have hfive : Settings.numberOf (.int 5) = .ok (some (.finite false (5 * 2 ^ 50) (-50))) := rfl
    obtain rfl := Option.some.inj (Except.ok.inj (hfive.symm.trans hnumber))
    exact ⟨settings, hload, (htaken (by simp)).2⟩
  · have hfive : Settings.numberOf (.int (-5)) = .ok (some (.finite true (5 * 2 ^ 50) (-50))) := rfl
    obtain ⟨fault, hload, -⟩ := (load_timeout _ (searchOverrides (.int (-5))) false
      htable).2.1 hmeasured fun x hnumber => by
        obtain rfl := Option.some.inj (Except.ok.inj (hfive.symm.trans hnumber))
        exact ⟨rfl, by simp⟩
    exact ⟨fault, hload⟩

/-- The value that is no number is loaded, and then rejected where nothing should be. -/
theorem nan_timeout_loaded :
    ∃ settings, Settings.load bareSource (searchOverrides (.float .nan)) false = .ok settings ∧
      settings.timeout = .float .nan ∧
      Session.new settings.timeout = .error (.failure
        (Invariant.never "invalid request timeout" [("value", .float .nan)])) := by
  obtain ⟨settings, hload, htimeout⟩ :
      ∃ settings, Settings.load bareSource (searchOverrides (.float .nan)) false = .ok settings ∧
        settings.timeout = .float .nan :=
    ⟨_, rfl, rfl⟩
  refine ⟨settings, hload, htimeout, ?_⟩
  rw [htimeout]
  rfl

end SymbolAtlas
