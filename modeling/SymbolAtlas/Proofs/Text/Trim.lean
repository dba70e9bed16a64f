import Mathlib.Data.List.DropRight
import Mathlib.Data.List.TakeWhile
import SymbolAtlas.Text.Classes

/-!
# Dropping at the two ends

What `List.dropWhile` does at the front and `dropLastWhile` at the end of a text: nothing, if no
element is to go (`dropWhile_eq_self`, `dropLastWhile_eq_self`), and all, if all of them are
(`dropLastWhile_eq_nil_iff`). A text without blanks at its ends is `Trimmed`, which is what `trim`
makes of every text (`trimmed_trim`) and what it leaves alone (`Trimmed.trim_eq`).
-/

namespace SymbolAtlas.Text

variable {α : Type} {p : α → Bool} {cs ds : List α}

theorem dropWhile_eq_self (h : ∀ c ∈ cs, p c = false) : cs.dropWhile p = cs := by
  cases cs with
  | nil => rfl
  | cons c cs => exact List.dropWhile_cons_of_neg (by simp [h c (List.mem_cons_self ..)])

theorem dropLastWhile_eq_self (h : ∀ c ∈ cs, p c = false) : dropLastWhile p cs = cs := by
  rw [dropLastWhile, dropWhile_eq_self fun c hc => h c (List.mem_reverse.1 hc),
    List.reverse_reverse]

theorem dropLastWhile_eq_nil_iff : dropLastWhile p cs = [] ↔ ∀ c ∈ cs, p c = true :=
  List.rdropWhile_eq_nil_iff

theorem dropLastWhile_append (h : ∀ d ∈ ds, p d = true) :
    dropLastWhile p (cs ++ ds) = dropLastWhile p cs := by
  rw [dropLastWhile, dropLastWhile, List.reverse_append,
    List.dropWhile_append_of_pos fun d hd => h d (List.mem_reverse.1 hd)]

theorem dropLastWhile_eq_self_iff :
    dropLastWhile p cs = cs ↔ ∀ c, cs.getLast? = some c → p c = false := by
  rw [dropLastWhile, List.reverse_eq_iff, List.dropWhile_eq_self_iff]
  cases hcs : cs.reverse with
  | nil => simp [List.getLast?_eq_head?_reverse, hcs]
  | cons c rest => simp [List.getLast?_eq_head?_reverse, hcs]

/-! ## Trimmed texts -/

/-- A text with no blank at either end. -/
structure Trimmed (t : Text) : Prop where
  head : ∀ c, t.head? = some c → isBlankPoint c = false
  last : ∀ c, t.getLast? = some c → isBlankPoint c = false

variable {t : Text}

theorem Trimmed.trim_eq (h : Trimmed t) : trim t = t := by
  have hfront : t.dropWhile isBlankPoint = t := by
    cases t with
    | nil => rfl
    | cons c t => exact List.dropWhile_cons_of_neg (by simp [h.head c rfl])
  rw [trim, hfront]
  exact dropLastWhile_eq_self_iff.2 h.last

/-- What is trimmed off are blanks. -/
theorem exists_blanks (t : Text) : ∃ lead trail : Text, t = lead ++ trim t ++ trail ∧
    (∀ c ∈ lead, isBlankPoint c = true) ∧ ∀ c ∈ trail, isBlankPoint c = true := by
  have hfront : t = t.takeWhile isBlankPoint ++ t.dropWhile isBlankPoint :=
    List.takeWhile_append_dropWhile.symm
  have hback : t.dropWhile isBlankPoint =
      trim t ++ ((t.dropWhile isBlankPoint).reverse.takeWhile isBlankPoint).reverse := by
    rw [trim, dropLastWhile, ← List.reverse_append, List.takeWhile_append_dropWhile,
      List.reverse_reverse]
  refine ⟨t.takeWhile isBlankPoint,
    ((t.dropWhile isBlankPoint).reverse.takeWhile isBlankPoint).reverse, ?_, ?_, ?_⟩
  · rw [List.append_assoc, ← hback, ← hfront]
  · exact fun c hc => List.mem_takeWhile_imp hc
  · exact fun c hc => List.mem_takeWhile_imp (List.mem_reverse.1 hc)

theorem trimmed_trim (t : Text) : Trimmed (trim t) := by
  constructor
  case last =>
    exact dropLastWhile_eq_self_iff.1 (List.rdropWhile_idempotent isBlankPoint _)
  case head =>
    intro c hc
    have hbegins : trim t <+: t.dropWhile isBlankPoint := List.rdropWhile_prefix isBlankPoint _
    have hfirst : (t.dropWhile isBlankPoint).head? = some c := by
      obtain ⟨rest, hrest⟩ := hbegins
      rw [← hrest, List.head?_append, hc, Option.some_or]
    have hkept := List.head?_dropWhile_not isBlankPoint t
    rw [hfirst] at hkept
    simpa using hkept

end SymbolAtlas.Text
