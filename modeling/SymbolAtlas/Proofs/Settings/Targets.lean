import SymbolAtlas.Proofs.Disk.Paths
import SymbolAtlas.Settings.Load

/-!
# Where the target file is

What is asked about is always addressed below the repository. A path with slashes in front is
stripped as a text, while it is put together and compared by its components; but a stripped text has
no root, so its components come behind those of the directory it is taken below.

* `Path.child_dropSlashes` — a stripped text never leads away from the directory it is taken below;
* `resolveTarget_of_below`, `resolveTarget_of_not_below` — the two ways of taking a path;
* `resolveTarget_addressed` — every target is below the repository, and stays where it is when it
  is taken below the repository again.
-/

namespace SymbolAtlas

namespace Path

open Text

/-- Whether a path leads to the other or to something below it, in terms of its components. -/
theorem isBelow_iff {q p : Path} : q.isBelow p = true ↔ q.root = p.root ∧ p.parts <+: q.parts := by
  simp [isBelow]

/-! ## Stripped texts -/

/-- A stripped text does not begin with a slash. -/
theorem head?_dropSlashes (t : Text) : (dropSlashes t).head? ≠ some slash := by
  intro h
  have hdropped := List.head?_dropWhile_not (fun p => p = .char '/' || p = .char '\\') t
  rw [dropSlashes] at h
  rw [h] at hdropped
  simp [slash] at hdropped

theorem rootOf_of_head? {t : Text} (h : t.head? ≠ some slash) : rootOf t = .here := by
  cases t with
  | nil => rfl
  | cons c cs => exact rootOf_here (by simpa using h) cs

/-- A stripped text never leads away from the directory it is taken below. -/
theorem child_dropSlashes (p : Path) (t : Text) :
    p.child (dropSlashes t) = ⟨p.root, p.parts ++ components (dropSlashes t)⟩ := by
  have hroot : (parse (dropSlashes t)).isAbsolute = false := by
    rw [isAbsolute, parse, rootOf_of_head? (head?_dropSlashes t)]
    rfl
  rw [child, append, hroot]
  rfl

end Path

/-! ## Targets -/

variable {repo file : Path}

/-- A path that leads below the repository already is left as it is. -/
theorem resolveTarget_of_below (habsolute : file.isAbsolute = true) (hroot : file.root = repo.root)
    (hparts : repo.parts <+: file.parts) : resolveTarget repo file = file := by
  have hbelow : file.isBelow repo = true := Path.isBelow_iff.2 ⟨hroot, hparts⟩
  simp [resolveTarget, habsolute, hbelow]

/-- Any other path is taken below the repository. -/
theorem resolveTarget_of_not_below (h : ¬(file.isAbsolute = true ∧ file.isBelow repo = true)) :
    resolveTarget repo file =
      ⟨repo.root, repo.parts ++ Path.components (dropSlashes file.text)⟩ := by
  rw [resolveTarget, if_neg (by simpa using h), Path.child_dropSlashes]

/-- A target is a path below the repository. -/
theorem isBelow_resolveTarget (repo file : Path) : (resolveTarget repo file).isBelow repo = true := by
  by_cases h : file.isAbsolute = true ∧ file.isBelow repo = true
  · obtain ⟨hroot, hparts⟩ := Path.isBelow_iff.1 h.2
    rw [resolveTarget_of_below h.1 hroot hparts]
    exact h.2
  · rw [resolveTarget_of_not_below h]
    exact Path.isBelow_iff.2 ⟨rfl, List.prefix_append ..⟩

/-- **The target file is always addressed below the repository**: its root is that of the
repository, and its components begin with those of the repository. What is below an absolute
repository stays where it is, and so does a target that is taken for a file again. -/
theorem resolveTarget_addressed (repo file : Path) :
    ((resolveTarget repo file).root = repo.root ∧
      repo.parts <+: (resolveTarget repo file).parts) ∧
    (repo.isAbsolute = true →
      resolveTarget repo (resolveTarget repo file) = resolveTarget repo file) ∧
    (repo.isAbsolute = true → file.isAbsolute = true → file.root = repo.root →
      repo.parts <+: file.parts → resolveTarget repo file = file) := by
  obtain ⟨hroot, hparts⟩ := Path.isBelow_iff.1 (isBelow_resolveTarget repo file)
  refine ⟨⟨hroot, hparts⟩, fun hrepo => ?_, fun _ hfile => resolveTarget_of_below hfile⟩
  have habsolute : (resolveTarget repo file).isAbsolute = true := by
    rw [Path.isAbsolute, hroot]
    exact hrepo
  exact resolveTarget_of_below habsolute hroot hparts

/-- A repository below two slashes, and a file in it that is written in full. -/
theorem resolveTarget_addressed_doubled :
    (Path.parse "//work/./repo").isAbsolute = true ∧
    (Path.parse "//work/repo//A.java").isAbsolute = true ∧
    (Path.parse "//work/repo").parts <+: (Path.parse "//work/repo//A.java").parts ∧
    resolveTarget (Path.parse "//work/./repo") (Path.parse "//work/repo//A.java") =
      Path.parse "//work/repo/A.java" ∧
    resolveTarget (Path.parse "//work/./repo")
        (resolveTarget (Path.parse "//work/./repo") (Path.parse "/\\/..\\x")) =
      resolveTarget (Path.parse "//work/./repo") (Path.parse "/\\/..\\x") := by
  have habsolute : (Path.parse "//work/./repo").isAbsolute = true := by decide
  have hfile : Path.parse "//work/repo//A.java" = Path.parse "//work/repo/A.java" := by decide
  have hrepo : Path.parse "//work/./repo" = Path.parse "//work/repo" := by decide
  have hbelow : (Path.parse "//work/repo").parts <+: (Path.parse "//work/repo//A.java").parts := by
    decide
  obtain ⟨-, -, hsame⟩ :=
    resolveTarget_addressed (Path.parse "//work/./repo") (Path.parse "//work/repo//A.java")
  obtain ⟨-, hagain, -⟩ :=
    resolveTarget_addressed (Path.parse "//work/./repo") (Path.parse "/\\/..\\x")
  refine ⟨habsolute, by decide, hbelow, ?_, hagain habsolute⟩
  rw [← hfile]
  exact hsame habsolute (by decide) (by decide) (by rw [hrepo]; exact hbelow)

end SymbolAtlas
