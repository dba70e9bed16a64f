import Mathlib.Data.Set.List
import SymbolAtlas.Disk.Path
import SymbolAtlas.Proofs.Text.Cutting
import SymbolAtlas.Proofs.Text.FileName

/-!
# Paths and their texts

The path that a text writes has no empty component, no component `.` and no slash in one. A path of
this kind is determined by its text, from which it is read back. Its bytes determine it too, if its
components are written as directories list them.

* `Path.IsName` — a text that can be a component;
* `Path.Clean` — a path whose components are names, with `Path.clean_parse`;
* `Path.parse_text` — the path that the text of a path writes;
* `Path.Listed` — a path written as directories list it, with `Path.bytes_inj`.
-/

namespace SymbolAtlas.Path

open Text

/-- The text can be a component of a path. -/
structure IsName (t : Text) : Prop where
  ne_nil : t ≠ []
  ne_here : t ≠ hereName
  no_slash : slash ∉ t

theorem isName_up : IsName upName := by
  constructor <;> decide

/-- All components of the path are names. -/
def Clean (p : Path) : Prop :=
  ∀ t ∈ p.parts, IsName t

theorem isName_of_mem_components {t name : Text} (h : name ∈ components t) : IsName name := by
  obtain ⟨hpiece, hkept⟩ := List.mem_filter.1 h
  have hslash := not_mem_of_mem_pieces hpiece
  constructor <;> simp_all

theorem clean_parse (t : Text) : (parse t).Clean :=
  fun _ => isName_of_mem_components

/-! ## Reading a path back -/

variable {parts : List Text}

theorem pieces_join_slash (hparts : parts ≠ []) (h : ∀ t ∈ parts, IsName t) :
    pieces slash (joinPieces [slash] parts) = parts :=
  pieces_joinPieces hparts fun p hp => (h p hp).no_slash

/-- Names with slashes between neighbours are neither left out nor cut. -/
theorem components_join_slash (h : ∀ t ∈ parts, IsName t) :
    components (joinPieces [slash] parts) = parts := by
  cases parts with
  | nil => rfl
  | cons t parts =>
    rw [components, pieces_join_slash (by simp) h]
    exact List.filter_eq_self.2 fun p hp => by simp [(h p hp).ne_nil, (h p hp).ne_here]

theorem components_slash (t : Text) : components (slash :: t) = components t := by
  rw [components, components, pieces, if_pos rfl]
  rfl

/-- A first name does not begin with a slash. -/
theorem exists_join_slash (hparts : parts ≠ []) (h : ∀ t ∈ parts, IsName t) :
    ∃ c cs, c ≠ slash ∧ joinPieces [slash] parts = c :: cs := by
  obtain ⟨t, parts, rfl⟩ := List.exists_cons_of_ne_nil hparts
  obtain ⟨hname, -⟩ := List.forall_mem_cons.1 h
  obtain ⟨c, cs, rfl⟩ := List.exists_cons_of_ne_nil hname.ne_nil
  have hc : c ≠ slash := by
    rintro rfl
    exact hname.no_slash (by simp)
  cases parts with
  | nil => exact ⟨c, cs, hc, rfl⟩
  | cons t parts => exact ⟨c, _, hc, rfl⟩

section Root

variable {c : CodePoint} (hc : c ≠ slash) (cs : Text)

include hc

theorem rootOf_here : rootOf (c :: cs) = .here := by
  rw [slash] at hc
  simp [rootOf, hc]

theorem rootOf_top : rootOf (slash :: c :: cs) = .top := by
  rw [slash] at hc ⊢
  simp [rootOf, hc]

theorem rootOf_doubled : rootOf (slash :: slash :: c :: cs) = .doubled := by
  rw [slash] at hc ⊢
  simp [rootOf, hc]

end Root

/-- The slashes of the root stand in front of the components, unless there is neither. -/
theorem text_eq {p : Path} (h : p ≠ ⟨.here, []⟩) :
    p.text = p.root.text ++ joinPieces [slash] p.parts := by
  obtain ⟨root, parts⟩ := p
  cases root <;> cases parts <;> first | rfl | exact absurd rfl h

theorem rootOf_text (root : PathRoot) (hparts : parts ≠ []) (h : ∀ t ∈ parts, IsName t) :
    rootOf (root.text ++ joinPieces [slash] parts) = root := by
  obtain ⟨c, cs, hc, hcs⟩ := exists_join_slash hparts h
  rw [hcs]
  cases root with
  | here => exact rootOf_here hc cs
  | top => exact rootOf_top hc cs
  | doubled => exact rootOf_doubled hc cs

theorem components_text (root : PathRoot) (h : ∀ t ∈ parts, IsName t) :
    components (root.text ++ joinPieces [slash] parts) = parts := by
  have hjoin := components_join_slash h
  cases root with
  | here => exact hjoin
  | top => exact (components_slash _).trans hjoin
  | doubled => exact (components_slash _).trans ((components_slash _).trans hjoin)

/-- A path whose components are names is read back from its text. -/
theorem parse_text {p : Path} (h : p.Clean) : parse p.text = p := by
  obtain ⟨root, parts⟩ := p
  cases parts with
  | nil => cases root <;> decide
  | cons t parts =>
    rw [text_eq (by simp), parse, rootOf_text root (by simp) h, components_text root h]

/-! ## Bytes -/

theorem hasFileBytes_joinPieces (parts : List Text) :
    hasFileBytes (joinPieces [slash] parts) = parts.all hasFileBytes := by
  induction parts with
  | nil => rfl
  | cons t parts ih =>
    cases parts with
    | nil => simp [joinPieces]
    | cons u parts =>
      rw [joinPieces_cons _ (by simp), hasFileBytes_append, hasFileBytes_append, ih]
      simp [hasFileBytes, slash, CodePoint.hasFileBytes]

/-- A path has bytes if its components have. -/
theorem hasFileBytes_text (p : Path) : p.text.hasFileBytes = p.parts.all hasFileBytes := by
  by_cases h : p = ⟨.here, []⟩
  · subst h
    rfl
  · rw [text_eq h, hasFileBytes_append, hasFileBytes_joinPieces]
    cases p.root <;> rfl

/-- The components are written as directories list them. -/
def Listed (p : Path) : Prop :=
  ∀ t ∈ p.parts, t.listed = t

/-- A path without surrogates is written as directories list it. -/
theorem listed_of_chars {p : Path} {cs : List Char} (h : p.text = cs.map .char) : p.Listed := by
  intro t ht
  have hempty : p ≠ ⟨.here, []⟩ := by
    rintro rfl
    cases ht
  have hchars : t ∈ Set.range (List.map CodePoint.char) := by
    rw [Set.range_list_map]
    intro c hc
    have hmem : c ∈ p.text := by
      rw [text_eq hempty]
      exact List.mem_append_right _ (mem_joinPieces ht hc)
    obtain ⟨x, -, rfl⟩ := List.mem_map.1 (h ▸ hmem)
    exact ⟨x, rfl⟩
  obtain ⟨cs', rfl⟩ := hchars
  exact listed_map_char cs'

theorem listed_joinPieces (h : ∀ t ∈ parts, t.listed = t) :
    listed (joinPieces [slash] parts) = joinPieces [slash] parts := by
  induction parts with
  | nil => rfl
  | cons t parts ih =>
    obtain ⟨ht, hparts⟩ := List.forall_mem_cons.1 h
    cases parts with
    | nil => exact ht
    | cons u parts =>
      have hslash := listed_append_slash t (joinPieces [slash] (u :: parts))
      rw [ht, ih hparts] at hslash
      simpa [joinPieces, slash] using hslash

/-- Such a path is written as its bytes are shown. -/
theorem Listed.text {p : Path} (h : p.Listed) : p.text.listed = p.text := by
  by_cases hempty : p = ⟨.here, []⟩
  · subst hempty
    decide +kernel
  · have hjoin := listed_joinPieces h
    have hslash : ∀ {t : Text}, listed t = t → listed (slash :: t) = slash :: t := fun ht =>
      (listed_append_slash [] _).trans (congrArg (slash :: ·) ht)
    rw [text_eq hempty]
    cases p.root with
    | here => exact hjoin
    | top => exact hslash hjoin
    | doubled => exact hslash (hslash hjoin)

/-- A path that is written as directories list it is told by its bytes. -/
theorem bytes_inj {p q : Path} (hp : p.Clean) (hq : q.Clean) (hp' : p.Listed) (hq' : q.Listed) :
    p.bytes = q.bytes ↔ p = q := by
  refine ⟨fun h => ?_, congrArg bytes⟩
  have htext : p.text = q.text := by
    rw [← hp'.text, ← hq'.text]
    exact congrArg ofFileBytes h
  rw [← parse_text hp, htext, parse_text hq]

end SymbolAtlas.Path
