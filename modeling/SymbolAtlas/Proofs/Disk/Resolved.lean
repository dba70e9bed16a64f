import SymbolAtlas.Disk.Resolve
import SymbolAtlas.Proofs.Disk.Paths
import SymbolAtlas.Proofs.Outcomes

/-!
# What resolved paths are like

A resolved path is absolute, has bytes, and its components are names: what is taken onto a resolved
place is one piece of a text at a time, and the places of links were resolved in the same way.

* `Path.Clean.up`, `Path.Clean.collapse` — what is done to a path on the way;
* `Disk.Met.Clean`, `Disk.Landing.Clean` — the places of links, and where resolving comes to;
* `Disk.clean_resolveWith`, `Disk.clean_resolveText` — components that are taken onto a place;
* `Disk.clean_resolve`, `Disk.isAbsolute_resolve`, `Disk.hasFileBytes_resolve` — resolved paths.
-/

namespace SymbolAtlas

namespace Path

variable {p : Path}

theorem Clean.below (h : p.Clean) {name : Text} (hname : IsName name) :
    (p.below name).Clean := by
  intro s hs
  obtain hs | hs := List.mem_append.1 hs
  · exact h s hs
  · exact List.mem_singleton.1 hs ▸ hname

theorem Clean.up (h : p.Clean) : p.up.Clean := by
  have hdropped : ∀ s ∈ p.parts.dropLast, IsName s := fun s hs => h s (List.dropLast_subset _ hs)
  unfold Path.up
  split
  · exact h.below isName_up
  · split
    · exact h.below isName_up
    · exact hdropped
  · exact hdropped

theorem mem_of_mem_collapseOnto {done rest : List Text} {s : Text}
    (h : s ∈ collapseOnto done rest) : s ∈ done ∨ s ∈ rest := by
  induction rest generalizing done with
  | nil => exact .inl (List.mem_reverse.1 h)
  | cons name rest ih =>
    rw [collapseOnto] at h
    split at h
    · obtain h | h := ih h
      · exact .inl (List.mem_of_mem_tail h)
      · exact .inr (List.mem_cons_of_mem _ h)
    · obtain h | h := ih h
      · obtain rfl | h := List.mem_cons.1 h
        · exact .inr (List.mem_cons_self ..)
        · exact .inl h
      · exact .inr (List.mem_cons_of_mem _ h)

theorem Clean.collapse (h : p.Clean) : p.collapse.Clean := by
  intro s hs
  obtain hs | hs := mem_of_mem_collapseOnto hs
  · cases hs
  · exact h s hs

end Path

namespace Disk

variable {d : Disk}

/-- The names of the directory that relative paths start from can be components. -/
def Placed (d : Disk) : Prop :=
  ∀ s ∈ d.workingDir, Path.IsName s

/-- The places that links are known to resolve to are clean. -/
def Met.Clean (met : Met) : Prop :=
  ∀ link place, met.lookup link = some (some place) → place.Clean

/-- A place that is come to is clean. A text is not read yet. -/
def Landing.Clean : Landing → Prop
  | .place p => p.Clean
  | .written _ => True

theorem Met.Clean.cons {met : Met} (h : met.Clean) (link : Path) {place : Option Path}
    (hplace : ∀ p, place = some p → p.Clean) : Met.Clean ((link, place) :: met) := by
  intro other p hp
  rw [List.lookup_cons] at hp
  split at hp
  · exact hplace p (Option.some.inj hp)
  · exact h other p hp

/-- Resolving the target of a link from a clean place comes to a clean place. -/
def Follows (onLink : Met → Path → Text → Except ResolveError (Landing × Met)) : Prop :=
  ∀ met here target landing met', onLink met here target = .ok (landing, met') →
    met.Clean → here.Clean → landing.Clean ∧ met'.Clean

/-- Components are taken onto a clean place one by one. -/
theorem clean_resolveWith {onLink : Met → Path → Text → Except ResolveError (Landing × Met)}
    (honLink : Follows onLink) {met met' : Met} {here : Path} {names : List Text}
    {landing : Landing} (h : resolveWith d onLink met here names = .ok (landing, met'))
    (hmet : met.Clean) (hhere : here.Clean) (hnames : ∀ name ∈ names, Path.slash ∉ name) :
    landing.Clean ∧ met'.Clean := by
  induction names generalizing met here with
  | nil =>
    cases h
    exact ⟨hhere, hmet⟩
  | cons name rest ih =>
    obtain ⟨hslash, hrest⟩ := List.forall_mem_cons.1 hnames
    rw [resolveWith] at h
    split at h
    · exact ih h hmet hhere hrest
    next hkept =>
    split at h
    · exact ih h hmet hhere.up hrest
    split at h
    · cases h
    split at h
    · cases h
    have hname : Path.IsName name := by
      simp only [Bool.or_eq_true, List.isEmpty_iff, decide_eq_true_eq, not_or] at hkept
      exact ⟨hkept.1, hkept.2, hslash⟩
    dsimp only at h
    split at h
    · exact ih h hmet (hhere.below hname) hrest
    split at h
    · next place hplace => exact ih h hmet (hmet _ _ hplace) hrest
    · cases h
      exact ⟨trivial, hmet⟩
    · split at h
      · cases h
      · next text met₁ hlink =>
        cases h
        exact ⟨trivial, (honLink _ _ _ _ _ hlink (hmet.cons _ (by simp)) hhere).2⟩
      · next place met₁ hlink =>
        obtain ⟨hplace, hmet₁⟩ := honLink _ _ _ _ _ hlink (hmet.cons _ (by simp)) hhere
        refine ih h (hmet₁.cons _ ?_) hplace hrest
        rintro p ⟨⟩
        exact hplace

/-- The same for a text, whose pieces are taken one by one. -/
theorem clean_resolveText (d : Disk) (depth : Nat) : Follows (resolveText d depth) := by
  induction depth with
  | zero =>
    intro met here target landing met' h
    cases h
  | succ depth ih =>
    intro met here target landing met' h hmet hhere
    refine clean_resolveWith ih h hmet ?_ fun name => Text.not_mem_of_mem_pieces
    split
    · exact fun s hs => absurd hs (List.not_mem_nil)
    · exact hhere

theorem clean_absolute (hd : d.Placed) {p : Path} (h : p.Clean) : (d.absolute p).Clean := by
  unfold absolute
  split
  · exact h
  · intro s hs
    obtain hs | hs := List.mem_append.1 hs
    · exact hd s hs
    · exact h s hs

theorem isAbsolute_absolute (d : Disk) (p : Path) : (d.absolute p).isAbsolute = true := by
  unfold absolute
  split
  · assumption
  · rfl

/-- A path that is resolved is what is written of it, made absolute and collapsed. A disk can be
asked for it, unless it has too many bytes. -/
theorem exists_written_of_resolve {p q : Path} (h : d.resolve p = .ok q) :
    ∃ written : Path, written.Clean ∧ q = (d.absolute written).collapse ∧
      d.find q ≠ .error .notEncodable := by
  unfold resolve at h
  obtain ⟨⟨landing, met⟩, hlanding, h⟩ := bind_eq_ok.1 h
  have hmet : Met.Clean [] := by
    rintro link place ⟨⟩
  have hhere : (⟨.here, []⟩ : Path).Clean := fun s hs => absurd hs List.not_mem_nil
  obtain ⟨hclean, -⟩ := clean_resolveText d maxNesting _ _ _ _ _ hlanding hmet hhere
  dsimp only at h
  split at h
  · cases h
  · cases h
  · cases h
  · next hbytes =>
    cases h
    cases landing with
    | place p => exact ⟨p, hclean, rfl, hbytes⟩
    | written text => exact ⟨Path.parse text, Path.clean_parse text, rfl, hbytes⟩

theorem clean_resolve (hd : d.Placed) {p q : Path} (h : d.resolve p = .ok q) : q.Clean := by
  obtain ⟨written, hwritten, rfl, -⟩ := exists_written_of_resolve h
  exact (clean_absolute hd hwritten).collapse

theorem isAbsolute_resolve {p q : Path} (h : d.resolve p = .ok q) : q.isAbsolute = true := by
  obtain ⟨written, -, rfl, -⟩ := exists_written_of_resolve h
  exact isAbsolute_absolute d written

theorem hasFileBytes_resolve {p q : Path} (h : d.resolve p = .ok q) : q.text.hasFileBytes := by
  obtain ⟨written, -, -, hbytes⟩ := exists_written_of_resolve h
  by_contra hnone
  exact hbytes (by rw [find, if_pos (by simpa using hnone)])

end Disk

end SymbolAtlas
