import SymbolAtlas.Text.Pieces

/-!
# Cutting and joining

Where a text is cut, and what its pieces come to when some of them are joined again.

* `cutAtText_eq_none_iff`, `cutAtText_append` — a text is cut at the first place where the other
  occurs;
* `length_pieces`, `not_mem_of_mem_pieces`, `pieces_joinPieces` — how many pieces there are, that
  the separator is in none of them, and that this is all that is needed to cut at the same places
  again;
* `joinPieces_append`, `joinPieces_append_left`, `joinPieces_append_right` — pieces joined in two
  parts, the separators between the parts being counted to neither, to the one or to the other.
-/

namespace SymbolAtlas.Text

variable {α : Type} [DecidableEq α]

/-! ## Cutting at a text -/

section CutAtText

variable {sep t : List α}

theorem cutAtText_self (hsep : sep ≠ []) (after : List α) :
    cutAtText sep (sep ++ after) = some ([], after) := by
  cases sep with
  | nil => exact absurd rfl hsep
  | cons s sep => simp [cutAtText]

theorem cutAtText_cons {c : α} (h : ¬ sep <+: c :: t) :
    cutAtText sep (c :: t) = (cutAtText sep t).map fun (before, after) => (c :: before, after) := by
  rw [cutAtText, if_neg (by simpa using h)]

theorem cutAtText_eq_none_iff (hsep : sep ≠ []) : cutAtText sep t = none ↔ ¬ sep <:+: t := by
  induction t with
  | nil => simp [cutAtText, hsep]
  | cons c t ih =>
    rw [List.infix_cons_iff, not_or, ← ih]
    by_cases h : sep <+: c :: t
    · simp [cutAtText, h]
    · simp [cutAtText_cons h, h]

omit [DecidableEq α] in
/-- A text that another does not begin with does not begin further on either, if the other is
followed by what is none of its elements. -/
theorem not_isPrefix_append {c : α} {rest : List α} (h : ¬ sep <+: t) (hc : c ∉ sep) :
    ¬ sep <+: t ++ c :: rest := by
  intro hbegins
  have hlong : t ++ [c] <+: t ++ c :: rest := by simp
  obtain hshort | hlong := List.prefix_or_prefix_of_prefix hbegins hlong
  · obtain heq | hshort := List.prefix_concat_iff.1 hshort
    · exact hc (by simp [heq])
    · exact h hshort
  · exact hc (hlong.mem (by simp))

omit [DecidableEq α] in
/-- One element more makes no new occurrence of a text that it is no part of. -/
theorem not_isInfix_concat {c : α} (hsep : sep ≠ []) (h : ¬ sep <:+: t) (hc : c ∉ sep) :
    ¬ sep <:+: t ++ [c] := by
  -- seen from the end, an occurrence that is new would begin with the new element
  rw [← List.reverse_infix, List.reverse_concat, List.infix_cons_iff, List.reverse_infix, not_or]
  refine ⟨fun hbegins => ?_, h⟩
  obtain ⟨d, rest, hrev⟩ := List.exists_cons_of_ne_nil (List.reverse_ne_nil_iff.2 hsep)
  rw [hrev, List.cons_prefix_cons] at hbegins
  have hmem : d ∈ sep := List.mem_reverse.1 (hrev ▸ List.mem_cons_self ..)
  exact hc (hbegins.1 ▸ hmem)

/-- The cut is made where the text occurs first. -/
theorem cutAtText_append {c : α} {after : List α} (hsep : sep ≠ []) (h : ¬ sep <:+: t)
    (hc : c ∉ sep) : cutAtText sep (t ++ c :: (sep ++ after)) = some (t ++ [c], after) := by
  induction t with
  | nil =>
    have hfirst : ¬ sep <+: c :: (sep ++ after) :=
      not_isPrefix_append (t := []) (by simpa using hsep) hc
    rw [List.nil_append, cutAtText_cons hfirst, cutAtText_self hsep]
    rfl
  | cons d t ih =>
    rw [List.infix_cons_iff, not_or] at h
    have hfirst : ¬ sep <+: d :: (t ++ c :: (sep ++ after)) := not_isPrefix_append h.1 hc
    rw [List.cons_append, cutAtText_cons hfirst, ih h.2]
    rfl

end CutAtText

/-! ## Pieces -/

section Pieces

variable {sep : α}

theorem pieces_cons_of_ne {c : α} {cs p : List α} {ps : List (List α)} (hc : c ≠ sep)
    (h : pieces sep cs = p :: ps) : pieces sep (c :: cs) = (c :: p) :: ps := by
  rw [pieces, if_neg hc, h]

/-- There is one piece more than separators. -/
theorem length_pieces (cs : List α) : (pieces sep cs).length = cs.count sep + 1 := by
  induction cs with
  | nil => rfl
  | cons c cs ih =>
    by_cases hc : c = sep
    · rw [pieces, if_pos hc, List.length_cons, ih, hc, List.count_cons_self]
    · obtain ⟨p, ps, hps⟩ := List.exists_cons_of_ne_nil (pieces_ne_nil sep cs)
      rw [pieces_cons_of_ne hc hps, List.count_cons_of_ne hc, ← ih, hps]
      rfl

theorem not_mem_of_mem_pieces {cs p : List α} (hp : p ∈ pieces sep cs) : sep ∉ p := by
  induction cs generalizing p with
  | nil =>
    rw [pieces, List.mem_singleton] at hp
    simp [hp]
  | cons c cs ih =>
    by_cases hc : c = sep
    · rw [pieces, if_pos hc, List.mem_cons] at hp
      obtain rfl | hp := hp
      · simp
      · exact ih hp
    · obtain ⟨q, qs, hqs⟩ := List.exists_cons_of_ne_nil (pieces_ne_nil sep cs)
      rw [hqs] at ih
      rw [pieces_cons_of_ne hc hqs, List.mem_cons] at hp
      obtain rfl | hp := hp
      · simp [Ne.symm hc, ih (List.mem_cons_self ..)]
      · exact ih (List.mem_cons_of_mem _ hp)

theorem pieces_of_not_mem {p : List α} (h : sep ∉ p) : pieces sep p = [p] := by
  induction p with
  | nil => rfl
  | cons c p ih =>
    rw [List.mem_cons, not_or] at h
    exact pieces_cons_of_ne (Ne.symm h.1) (ih h.2)

theorem pieces_append {p : List α} (h : sep ∉ p) (cs : List α) :
    pieces sep (p ++ sep :: cs) = p :: pieces sep cs := by
  induction p with
  | nil => rw [List.nil_append, pieces, if_pos rfl]
  | cons c p ih =>
    rw [List.mem_cons, not_or] at h
    exact pieces_cons_of_ne (Ne.symm h.1) (ih h.2)

/-- Joining pieces without the separator and cutting again gives the pieces back. -/
theorem pieces_joinPieces {ps : List (List α)} (hps : ps ≠ []) (h : ∀ p ∈ ps, sep ∉ p) :
    pieces sep (joinPieces [sep] ps) = ps := by
  induction ps with
  | nil => exact absurd rfl hps
  | cons p ps ih =>
    rw [List.forall_mem_cons] at h
    cases ps with
    | nil => exact pieces_of_not_mem h.1
    | cons q ps =>
      have hjoin : joinPieces [sep] (p :: q :: ps) = p ++ sep :: joinPieces [sep] (q :: ps) := by
        simp [joinPieces]
      rw [hjoin, pieces_append h.1, ih (by simp) h.2]

end Pieces

/-! ## Joining in two parts -/

section Joining

omit [DecidableEq α]

variable {sep : List α} {ps qs : List (List α)}

theorem joinPieces_cons (p : List α) (hps : ps ≠ []) :
    joinPieces sep (p :: ps) = p ++ sep ++ joinPieces sep ps := by
  cases ps with
  | nil => exact absurd rfl hps
  | cons q ps => rfl

/-- What is in a piece is in what is joined. -/
theorem mem_joinPieces {p : List α} (hp : p ∈ ps) {a : α} (ha : a ∈ p) : a ∈ joinPieces sep ps := by
  induction ps with
  | nil => cases hp
  | cons q ps ih =>
    by_cases hps : ps = []
    · subst hps
      obtain rfl := List.mem_singleton.1 hp
      exact ha
    · rw [joinPieces_cons q hps]
      obtain rfl | hp := List.mem_cons.1 hp
      · simp [ha]
      · exact List.mem_append_right _ (ih hp)

/-- Two parts, with a separator between them. -/
theorem joinPieces_append (hps : ps ≠ []) (hqs : qs ≠ []) :
    joinPieces sep (ps ++ qs) = joinPieces sep ps ++ sep ++ joinPieces sep qs := by
  induction ps with
  | nil => exact absurd rfl hps
  | cons p ps ih =>
    cases ps with
    | nil => exact joinPieces_cons p hqs
    | cons q ps =>
      rw [List.cons_append, joinPieces_cons p (by simp), ih (by simp), joinPieces_cons p (by simp)]
      simp only [List.append_assoc]

/-- The first pieces each with its separator, then the others joined. -/
theorem joinPieces_append_left (hqs : qs ≠ []) :
    joinPieces sep (ps ++ qs) = ps.flatMap (· ++ sep) ++ joinPieces sep qs := by
  induction ps with
  | nil => rfl
  | cons p ps ih =>
    rw [List.cons_append, joinPieces_cons p (by simp [hqs]), ih, List.flatMap_cons,
      ← List.append_assoc]

theorem append_joinPieces (hps : ps ≠ []) : sep ++ joinPieces sep ps = ps.flatMap (sep ++ ·) := by
  induction ps with
  | nil => exact absurd rfl hps
  | cons p ps ih =>
    cases ps with
    | nil => simp [joinPieces]
    | cons q ps =>
      rw [joinPieces_cons p (by simp), List.append_assoc, ih (by simp), ← List.append_assoc]
      rfl

/-- The first pieces joined, then each of the others with its separator. -/
theorem joinPieces_append_right (hps : ps ≠ []) :
    joinPieces sep (ps ++ qs) = joinPieces sep ps ++ qs.flatMap (sep ++ ·) := by
  cases qs with
  | nil => simp
  | cons q qs =>
    rw [joinPieces_append hps (by simp), List.append_assoc, append_joinPieces (by simp)]

end Joining

section Count

variable {sep : α} {ps : List (List α)}

theorem count_flatMap (h : ∀ p ∈ ps, sep ∉ p) :
    (ps.flatMap (· ++ [sep])).count sep = ps.length := by
  induction ps with
  | nil => rfl
  | cons p ps ih =>
    rw [List.forall_mem_cons] at h
    rw [List.flatMap_cons, List.count_append, ih h.2, List.count_append,
      List.count_eq_zero_of_not_mem h.1, List.count_singleton_self, List.length_cons]
    omega

/-- Pieces without the separator are joined with one separator less than there are pieces. -/
theorem count_joinPieces (h : ∀ p ∈ ps, sep ∉ p) :
    (joinPieces [sep] ps).count sep = ps.length - 1 := by
  induction ps with
  | nil => rfl
  | cons p ps ih =>
    rw [List.forall_mem_cons] at h
    cases ps with
    | nil => exact List.count_eq_zero_of_not_mem h.1
    | cons q ps =>
      rw [joinPieces_cons p (by simp), List.count_append, List.count_append,
        List.count_eq_zero_of_not_mem h.1, ih h.2, List.count_singleton_self]
      simp only [List.length_cons]
      omega

end Count

end SymbolAtlas.Text
