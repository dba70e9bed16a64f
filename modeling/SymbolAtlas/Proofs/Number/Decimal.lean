import SymbolAtlas.Number.Numeral
import SymbolAtlas.Proofs.Text.Trim

/-!
# Decimal notation, written and read back

The decimal digits of a number, as `Nat.toDigits` writes them, are read back by the numerals of
headers and settings: `readInt?_toDigits`. What is needed of single characters is that an ASCII
digit has the value it is written for, and is neither a blank nor a sign nor an underscore.
-/

namespace SymbolAtlas.Numeral

open Text

/-! ## One digit -/

theorem isDigit_iff {c : Char} : c.isDigit = true ↔ 48 ≤ c.toNat ∧ c.toNat ≤ 57 := by
  simp only [Char.isDigit, Bool.and_eq_true, decide_eq_true_eq, ge_iff_le, UInt32.le_iff_toNat_le]
  rfl

theorem ne_of_isDigit {c d : Char} (hc : c.isDigit = true) (hd : d.isDigit = false) : c ≠ d := by
  rintro rfl
  exact Bool.noConfusion (hc.symm.trans hd)

theorem digitValue?_of_isDigit {c : Char} (h : c.isDigit = true) :
    digitValue? c = some (c.toNat - 48) := by
  obtain ⟨hlow, hhigh⟩ := isDigit_iff.1 h
  have hhigh' : c.toNat < 0x30 + 10 := by omega
  simp [digitValue?, zeros, hlow, hhigh']

theorem not_isBlank_of_isDigit {c : Char} (h : c.isDigit = true) : isBlank c = false := by
  obtain ⟨hlow, hhigh⟩ := isDigit_iff.1 h
  simp only [isBlank, Bool.or_eq_false_iff, Bool.and_eq_false_iff, decide_eq_false_iff_not,
    beq_eq_false_iff_ne]
  omega

theorem not_isMargin_of_isDigit {c : Char} (h : c.isDigit = true) : isMargin c = false := by
  simp [isMargin, not_isBlank_of_isDigit h]

/-! ## Runs of digits -/

theorem ofDigits_eq_ofDigitChars (ds : List Char) :
    ofDigits 10 (ds.map fun c => c.toNat - 48) = Nat.ofDigitChars 10 ds 0 := by
  simp [ofDigits, Nat.ofDigitChars_eq_foldl, List.foldl_map, Nat.mul_comm]

theorem moreDigits_of_isDigit {ds : List Char} (h : ∀ c ∈ ds, c.isDigit = true) :
    moreDigits digitValue? ds = (ds.map fun c => c.toNat - 48, []) := by
  induction ds with
  | nil => rfl
  | cons c ds ih =>
    have hc := h c (List.mem_cons_self ..)
    rw [moreDigits.eq_3 _ _ _ (ne_of_isDigit hc rfl), digitValue?_of_isDigit hc,
      ih fun d hd => h d (List.mem_cons_of_mem _ hd)]
    rfl

theorem digitRun_of_isDigit {ds : List Char} (h : ∀ c ∈ ds, c.isDigit = true) :
    digitRun ds = (ds.map fun c => c.toNat - 48, []) := by
  cases ds with
  | nil => rfl
  | cons c ds =>
    rw [digitRun, runOf, digitValue?_of_isDigit (h c (List.mem_cons_self ..)),
      moreDigits_of_isDigit fun d hd => h d (List.mem_cons_of_mem _ hd)]
    rfl

/-! ## Whole numbers -/

theorem isDigit_of_mem_toDigits {n : Nat} {c : Char} (h : c ∈ Nat.toDigits 10 n) :
    c.isDigit = true :=
  Nat.isDigit_of_mem_toDigits (by decide) (by decide) h

/-- A number other than zero is not written with a zero in front. -/
theorem toDigits_head?_ne {n : Nat} (hn : 0 < n) : (Nat.toDigits 10 n).head? ≠ some '0' := by
  induction n using Nat.strongRecOn with
  | ind n ih =>
    rw [Nat.toDigits_eq_if (by decide)]
    split
    · next h =>
      have hall : ∀ m < 10, 0 < m → m.digitChar ≠ '0' := by decide
      simpa using hall n h hn
    · next h =>
      rw [List.head?_append, Option.or_of_isSome (by simp)]
      exact ih (n / 10) (by omega) (by omega)

theorem takeSign_of_isDigit {ds : List Char} (h : ∀ c ∈ ds, c.isDigit = true) :
    takeSign ds = (false, ds) := by
  cases ds with
  | nil => rfl
  | cons c ds =>
    have hc := h c (List.mem_cons_self ..)
    unfold takeSign
    split
    · next heq => cases heq; simp at hc
    · next heq => cases heq; simp at hc
    · rfl

/-- **The digits of a number are read as the number**, unless there are too many. -/
theorem readInt?_toDigits {n : Nat} (h : (Nat.toDigits 10 n).length ≤ maxDigits) :
    readInt? (String.ofList (Nat.toDigits 10 n)) = some (n : Int) := by
  have hdigits : ∀ c ∈ Nat.toDigits 10 n, c.isDigit = true := fun c => isDigit_of_mem_toDigits
  have hmargins : ∀ c ∈ Nat.toDigits 10 n, isMargin c = false := fun c hc =>
    not_isMargin_of_isDigit (hdigits c hc)
  have hstrip : strip (String.ofList (Nat.toDigits 10 n)) = Nat.toDigits 10 n := by
    rw [strip, String.toList_ofList, dropWhile_eq_self hmargins, dropLastWhile_eq_self hmargins]
  have hvalue : ofDigits 10 ((Nat.toDigits 10 n).map fun c => c.toNat - 48) = n := by
    rw [ofDigits_eq_ofDigitChars, Nat.ofDigitChars_ten_toDigits]
  unfold readInt?
  rw [hstrip, takeSign_of_isDigit hdigits]
  dsimp only
  rw [digitRun_of_isDigit hdigits]
  simp [hvalue, Nat.not_lt.2 h]

end SymbolAtlas.Numeral
