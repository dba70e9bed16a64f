import Mathlib.Data.List.Lex
import Mathlib.Order.Lattice
import SymbolAtlas.Text.CodePoint

/-!
# The order of texts

Code points are ordered by their numbers, texts by their code points from the front, and lists of
texts by their texts. These are linear orders, so that a list that was sorted by one of them only
depends on what is in it.

* `Text.lexLe_iff` — the order of lists that an order of their elements gives;
* `Text.mergeSort_eq_of_perm` — sorting forgets the order before.
-/

namespace SymbolAtlas

theorem CodePoint.value_injective : Function.Injective CodePoint.value := by
  intro a b h
  cases a with
  | char c =>
    cases b with
    | char d => exact congrArg _ (Char.toNat_inj.1 h)
    | surrogate k =>
      have hc : c.toNat < 0xD800 ∨ 0xDFFF < c.toNat ∧ c.toNat < 0x110000 := c.valid
      have hk := k.isLt
      simp only [CodePoint.value] at h
      omega
  | surrogate k =>
    have hk := k.isLt
    cases b with
    | char d =>
      have hd : d.toNat < 0xD800 ∨ 0xDFFF < d.toNat ∧ d.toNat < 0x110000 := d.valid
      simp only [CodePoint.value] at h
      omega
    | surrogate l =>
      simp only [CodePoint.value] at h
      exact congrArg _ (Fin.ext (by omega))

instance : LinearOrder CodePoint :=
  LinearOrder.lift' CodePoint.value CodePoint.value_injective

namespace Text

section Lex

variable {α : Type} [DecidableEq α] [LinearOrder α] {le : α → α → Bool}

/-- Lists are in order as their first different elements are. -/
theorem lexLe_iff (hle : ∀ a b, le a b = true ↔ a ≤ b) {as bs : List α} :
    lexLe le as bs = true ↔ as ≤ bs := by
  rw [le_iff_lt_or_eq]
  induction as generalizing bs with
  | nil => cases bs <;> simp [lexLe]
  | cons a as ih =>
    cases bs with
    | nil => simp [lexLe]
    | cons b bs =>
      rw [lexLe, List.cons_lt_cons_iff, List.cons.injEq]
      split
      · next heq =>
        subst heq
        simpa using ih
      · next hne =>
        rw [hle]
        simp [hne, le_iff_lt_or_eq]

omit [DecidableEq α] in
/-- A list that was put in order does not tell in which order it was before. -/
theorem mergeSort_eq_of_perm (hle : ∀ a b, le a b = true ↔ a ≤ b) {as bs : List α}
    (h : as.Perm bs) : as.mergeSort le = bs.mergeSort le := by
  have hsorted : ∀ as : List α, (as.mergeSort le).Pairwise fun a b => le a b = true :=
    List.pairwise_mergeSort
      (fun a b c hab hbc => (hle a c).2 (le_trans ((hle a b).1 hab) ((hle b c).1 hbc)))
      fun a b => by simpa [hle] using le_total a b
  refine List.Perm.eq_of_pairwise (fun a b _ _ hab hba => ?_) (hsorted as) (hsorted bs) ?_
  · exact le_antisymm ((hle a b).1 hab) ((hle b a).1 hba)
  · exact (List.mergeSort_perm ..).trans (h.trans (List.mergeSort_perm ..).symm)

end Lex

theorem le_iff {t u : Text} : Text.le t u = true ↔ t ≤ u :=
  lexLe_iff fun _ _ => decide_eq_true_iff

end Text

end SymbolAtlas
