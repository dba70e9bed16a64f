import Mathlib.Data.List.Basic
import SymbolAtlas.Proofs.Text.Utf8
import SymbolAtlas.Text.FileName

/-!
# Names of files, shown and taken back

Bytes that are shown as a text are what the text stands for, so that no two names are shown alike.
A text that stands for the bytes is not always the one that they are shown as, but one without
surrogates is; and what stands between slashes is shown piece by piece.

* `Text.Held.Fits` — the bytes of a sequence under way open what it may come to;
* `Text.showFrom_spells` — what is shown stands for the bytes, from any state of the decoder on;
* `Text.fileBytes_ofFileBytes`, `Text.hasFileBytes_ofFileBytes` — the same for whole names;
* `Text.listed_map_char` — a text without surrogates is shown as it is;
* `Text.listed_append_slash` — pieces between slashes are shown one by one.
-/

namespace SymbolAtlas.Text

open Utf8

/-! ## Bytes of texts -/

theorem fileBytes_cons (c : CodePoint) (t : Text) :
    fileBytes (c :: t) = c.fileBytes ++ fileBytes t :=
  List.flatMap_cons ..

theorem fileBytes_append (t u : Text) : fileBytes (t ++ u) = fileBytes t ++ fileBytes u :=
  List.flatMap_append ..

theorem hasFileBytes_append (t u : Text) :
    hasFileBytes (t ++ u) = (hasFileBytes t && hasFileBytes u) :=
  List.all_append

/-- The bytes of a text without surrogates are UTF-8. -/
theorem fileBytes_map_char (cs : List Char) : fileBytes (cs.map .char) = encode cs :=
  List.flatMap_map ..

theorem hasFileBytes_ofByte {b : UInt8} (h : 0x80 ≤ b.toNat) :
    (CodePoint.ofByte b).hasFileBytes := by
  have hlt := b.toNat_lt
  simp only [CodePoint.ofByte, CodePoint.hasFileBytes, CodePoint.isByte, Bool.and_eq_true,
    decide_eq_true_eq]
  omega

theorem fileBytes_ofByte {b : UInt8} (h : 0x80 ≤ b.toNat) :
    (CodePoint.ofByte b).fileBytes = [b] := by
  have hbyte := hasFileBytes_ofByte h
  simp only [CodePoint.ofByte, CodePoint.hasFileBytes] at hbyte
  simp [CodePoint.ofByte, CodePoint.fileBytes, hbyte]

theorem fileBytes_map_ofByte {bs : List UInt8} (h : ∀ b ∈ bs, 0x80 ≤ b.toNat) :
    hasFileBytes (bs.map .ofByte) ∧ fileBytes (bs.map .ofByte) = bs := by
  induction bs with
  | nil => exact ⟨rfl, rfl⟩
  | cons b bs ih =>
    obtain ⟨hb, hbs⟩ := List.forall_mem_cons.1 h
    obtain ⟨hhas, hbytes⟩ := ih hbs
    refine ⟨List.all_eq_true.2 (List.forall_mem_cons.2 ⟨hasFileBytes_ofByte hb, ?_⟩), ?_⟩
    · exact List.all_eq_true.1 hhas
    · rw [List.map_cons, fileBytes_cons, fileBytes_ofByte hb, hbytes]
      rfl

/-! ## Sequences under way -/

/-- The number that continuation bytes add to. -/
def bitsOf (bits : Nat) (bs : List UInt8) : Nat :=
  bs.foldl (fun n b => n * 64 + b.toNat % 64) bits

/-- The bytes so far, and any that may follow, are those of the character that they come to. -/
structure Held.Fits (h : Held) : Prop where
  low : 0x80 ≤ h.sequence.low
  high : h.sequence.high ≤ 0xBF
  lacking : 0 < h.sequence.lacking
  bytes : ∀ b ∈ h.bytes, 0x80 ≤ b.toNat
  opens : ∀ (b : UInt8) (bs : List UInt8), bs.length + 1 = h.sequence.lacking →
    h.sequence.low ≤ b.toNat → b.toNat ≤ h.sequence.high →
    (∀ c ∈ bs, 0x80 ≤ c.toNat ∧ c.toNat ≤ 0xBF) →
    encodeChar (Char.ofNat (bitsOf h.sequence.bits (b :: bs))) = h.bytes ++ b :: bs

/-- One byte more leaves fewer ways to go on. -/
theorem Held.Fits.next {h : Held} (hh : h.Fits) {b : UInt8} (hlow : h.sequence.low ≤ b.toNat)
    (hhigh : b.toNat ≤ h.sequence.high) (hlack : 1 < h.sequence.lacking) :
    Held.Fits ⟨{ bits := h.sequence.bits * 64 + b.toNat % 64, lacking := h.sequence.lacking - 1 },
      h.bytes ++ [b]⟩ where
  low := Nat.le_refl _
  high := Nat.le_refl _
  lacking := Nat.sub_pos_of_lt hlack
  bytes c hc := by
    obtain hc | hc := List.mem_append.1 hc
    · exact hh.bytes c hc
    · obtain rfl := List.mem_singleton.1 hc
      exact Nat.le_trans hh.low hlow
  opens c cs hlength hc hc' hcs := by
    have hopens := hh.opens b (c :: cs) (by simp only [List.length_cons] at *; omega) hlow hhigh
      (List.forall_mem_cons.2 ⟨⟨hc, hc'⟩, hcs⟩)
    simpa [bitsOf] using hopens

theorem toUInt8_eq {n : Nat} {b : UInt8} (h : n = b.toNat) : n.toUInt8 = b := by
  rw [h]
  exact UInt8.ofNat_toNat

theorem toNat_ofNat {n : Nat} (h : n < 0xD800 ∨ 0xDFFF < n ∧ n < 0x110000) :
    (Char.ofNat n).toNat = n := by
  rw [Char.ofNat, dif_pos h]
  rfl

/-- Two bytes that are a character. -/
theorem encodeChar_two {b c : UInt8} (hb : 0xC2 ≤ b.toNat) (hb' : b.toNat ≤ 0xDF)
    (hc : 0x80 ≤ c.toNat) (hc' : c.toNat ≤ 0xBF) :
    encodeChar (Char.ofNat ((b.toNat - 0xC0) * 64 + c.toNat % 64)) = [b, c] := by
  generalize hn : (b.toNat - 0xC0) * 64 + c.toNat % 64 = n
  rw [encodeChar, toNat_ofNat (.inl (by omega)), if_neg (by omega), if_pos (by omega),
    toUInt8_eq (b := b) (by omega), toUInt8_eq (b := c) (by omega)]

/-- Three bytes that are a character, if what they come to is one that takes three. -/
theorem encodeChar_three {b c d : UInt8} {n : Nat}
    (hn : n = ((b.toNat - 0xE0) * 64 + c.toNat % 64) * 64 + d.toNat % 64)
    (hb : 0xE0 ≤ b.toNat) (hb' : b.toNat ≤ 0xEF) (hc : 0x80 ≤ c.toNat) (hc' : c.toNat ≤ 0xBF)
    (hd : 0x80 ≤ d.toNat) (hd' : d.toNat ≤ 0xBF) (hlong : 0x800 ≤ n)
    (hvalid : n < 0xD800 ∨ 0xDFFF < n) :
    encodeChar (Char.ofNat n) = [b, c, d] := by
  rw [encodeChar, toNat_ofNat (hvalid.imp_right fun h => ⟨h, by omega⟩), if_neg (by omega),
    if_neg (by omega), if_pos (by omega), toUInt8_eq (b := b) (by omega),
    toUInt8_eq (b := c) (by omega), toUInt8_eq (b := d) (by omega)]

/-- Four bytes that are a character, if what they come to is one that takes four. -/
theorem encodeChar_four {b c d e : UInt8} {n : Nat}
    (hn : n = (((b.toNat - 0xF0) * 64 + c.toNat % 64) * 64 + d.toNat % 64) * 64 + e.toNat % 64)
    (hb : 0xF0 ≤ b.toNat) (hc : 0x80 ≤ c.toNat) (hc' : c.toNat ≤ 0xBF)
    (hd : 0x80 ≤ d.toNat) (hd' : d.toNat ≤ 0xBF) (he : 0x80 ≤ e.toNat) (he' : e.toNat ≤ 0xBF)
    (hlong : 0x10000 ≤ n) (hvalid : n < 0x110000) :
    encodeChar (Char.ofNat n) = [b, c, d, e] := by
  rw [encodeChar, toNat_ofNat (.inr ⟨by omega, hvalid⟩), if_neg (by omega), if_neg (by omega),
    if_neg (by omega), toUInt8_eq (b := b) (by omega), toUInt8_eq (b := c) (by omega),
    toUInt8_eq (b := d) (by omega), toUInt8_eq (b := e) (by omega)]

/-- What a first byte opens: the number of bytes, and the range of the second one, which leaves out
what fewer bytes can write, the surrogates and what is above the last character. -/
theorem lead?_eq_some {b : Nat} {p : Partial} (h : lead? b = some p) :
    0x80 ≤ p.low ∧ p.high ≤ 0xBF ∧
      ((p.lacking = 1 ∧ p.bits = b - 0xC0 ∧ 0xC2 ≤ b ∧ b ≤ 0xDF) ∨
       (p.lacking = 2 ∧ p.bits = b - 0xE0 ∧ 0xE0 ≤ b ∧ b ≤ 0xEF ∧ (b = 0xE0 → 0xA0 ≤ p.low) ∧
         (b = 0xED → p.high ≤ 0x9F)) ∨
       (p.lacking = 3 ∧ p.bits = b - 0xF0 ∧ 0xF0 ≤ b ∧ b ≤ 0xF4 ∧ (b = 0xF0 → 0x90 ≤ p.low) ∧
         (b = 0xF4 → p.high ≤ 0x8F))) := by
  simp only [lead?, Bool.and_eq_true, decide_eq_true_eq, beq_iff_eq] at h
  split_ifs at h <;> obtain rfl := Option.some.inj h <;> dsimp only <;> omega

/-- A first byte opens what it may come to. -/
theorem fits_lead {b : UInt8} {p : Partial} (h : lead? b.toNat = some p) :
    Held.Fits ⟨p, [b]⟩ := by
  obtain ⟨hlow, hhigh, hcases⟩ := lead?_eq_some h
  refine ⟨hlow, hhigh, by dsimp only; omega, by simp; omega, fun c cs hlength hc hc' hcs => ?_⟩
  dsimp only at hlength hc hc' ⊢
  rcases hcases with ⟨hlack, hbits, hb, hb'⟩ | ⟨hlack, hbits, hb, hb', hE0, hED⟩ |
    ⟨hlack, hbits, hb, hb', hF0, hF4⟩
  · obtain rfl : cs = [] := List.length_eq_zero_iff.1 (by omega)
    exact hbits ▸ encodeChar_two hb hb' (by omega) (by omega)
  · obtain ⟨d, rfl⟩ := List.length_eq_one_iff.1 (show cs.length = 1 by omega)
    obtain ⟨hd, hd'⟩ := hcs d (List.mem_singleton_self _)
    rw [bitsOf, hbits]
    exact encodeChar_three rfl hb hb' (by omega) (by omega) hd hd'
      (by simp only [List.foldl_cons, List.foldl_nil]; omega)
      (by simp only [List.foldl_cons, List.foldl_nil]; omega)
  · obtain ⟨d, e, rfl⟩ := List.length_eq_two.1 (show cs.length = 2 by omega)
    obtain ⟨hd, hd'⟩ := hcs d (by simp)
    obtain ⟨he, he'⟩ := hcs e (by simp)
    rw [bitsOf, hbits]
    exact encodeChar_four rfl hb (by omega) (by omega) hd hd' he he'
      (by simp only [List.foldl_cons, List.foldl_nil]; omega)
      (by simp only [List.foldl_cons, List.foldl_nil]; omega)

/-! ## What is shown -/

/-- A byte between characters is shown, or opens a sequence that it fits. -/
theorem showFirst_spells (b : UInt8) :
    hasFileBytes (showFirst b).1 ∧
      fileBytes (showFirst b).1 ++ (showFirst b).2.elim [] Held.bytes = [b] ∧
      ∀ h ∈ (showFirst b).2, h.Fits := by
  unfold showFirst
  split_ifs with hascii
  · have hchar : encodeChar (Char.ofNat b.toNat) = [b] := by
      rw [encodeChar, toNat_ofNat (.inl (by omega)), if_pos hascii, toUInt8_eq rfl]
    exact ⟨rfl, by simpa [fileBytes, CodePoint.fileBytes] using hchar, by simp⟩
  · split
    · next p hp => exact ⟨rfl, rfl, by simpa using fits_lead hp⟩
    · have hhigh : ∀ b' ∈ [b], 0x80 ≤ b'.toNat := by
        simp only [List.mem_singleton, forall_eq]
        omega
      obtain ⟨hhas, hbytes⟩ := fileBytes_map_ofByte hhigh
      exact ⟨hhas, by simpa using hbytes, by simp⟩

/-- A byte inside a sequence completes it, goes on with it, or breaks it off. -/
theorem showNext_spells {h : Held} (hh : h.Fits) (b : UInt8) :
    hasFileBytes (showNext h b).1 ∧
      fileBytes (showNext h b).1 ++ (showNext h b).2.elim [] Held.bytes = h.bytes ++ [b] ∧
      ∀ h' ∈ (showNext h b).2, h'.Fits := by
  unfold showNext
  split_ifs with hrange hlack
  · simp only [Bool.and_eq_true, decide_eq_true_eq] at hrange
    have hopens := hh.opens b [] (Nat.le_antisymm hh.lacking hlack) hrange.1 hrange.2 (by simp)
    exact ⟨rfl, by simpa [fileBytes, CodePoint.fileBytes, bitsOf] using hopens, by simp⟩
  · simp only [Bool.and_eq_true, decide_eq_true_eq] at hrange
    refine ⟨rfl, rfl, fun h' hh' => ?_⟩
    obtain rfl := Option.some.inj hh'
    exact hh.next hrange.1 hrange.2 (Nat.not_le.1 hlack)
  · obtain ⟨hhas, hfirst, hfits⟩ := showFirst_spells b
    obtain ⟨hhas', hbytes⟩ := fileBytes_map_ofByte hh.bytes
    refine ⟨?_, ?_, hfits⟩
    · rw [hasFileBytes_append, hhas', hhas]
      rfl
    · rw [fileBytes_append, hbytes, List.append_assoc, hfirst]

theorem showFrom_none_cons (b : UInt8) (bs : List UInt8) :
    showFrom none (b :: bs) = (showFirst b).1 ++ showFrom (showFirst b).2 bs := rfl

theorem showFrom_some_cons (h : Held) (b : UInt8) (bs : List UInt8) :
    showFrom (some h) (b :: bs) = (showNext h b).1 ++ showFrom (showNext h b).2 bs := rfl

theorem showFrom_spells {held : Option Held} (h : ∀ x ∈ held, x.Fits) (bs : List UInt8) :
    hasFileBytes (showFrom held bs) ∧
      fileBytes (showFrom held bs) = held.elim [] Held.bytes ++ bs := by
  induction bs generalizing held with
  | nil =>
    cases held with
    | none => exact ⟨rfl, rfl⟩
    | some x => simpa [showFrom] using fileBytes_map_ofByte (h x rfl).bytes
  | cons b bs ih =>
    cases held with
    | none =>
      obtain ⟨hhas, hfirst, hfits⟩ := showFirst_spells b
      obtain ⟨hhas', hrest⟩ := ih hfits
      rw [showFrom_none_cons, hasFileBytes_append, fileBytes_append, hhas, hhas', hrest,
        ← List.append_assoc, hfirst]
      exact ⟨rfl, rfl⟩
    | some x =>
      obtain ⟨hhas, hnext, hfits⟩ := showNext_spells (h x rfl) b
      obtain ⟨hhas', hrest⟩ := ih hfits
      rw [showFrom_some_cons, hasFileBytes_append, fileBytes_append, hhas, hhas', hrest,
        ← List.append_assoc, hnext]
      simp

/-- **What bytes are shown as stands for the bytes.** -/
@[simp] theorem fileBytes_ofFileBytes (bs : List UInt8) : fileBytes (ofFileBytes bs) = bs :=
  (showFrom_spells (by simp) bs).2

theorem hasFileBytes_ofFileBytes (bs : List UInt8) : hasFileBytes (ofFileBytes bs) :=
  (showFrom_spells (by simp) bs).1

/-- Characters are shown as they are, inside a sequence too. -/
theorem showFrom_of_scan {held : Option Held} {bs : List UInt8} {cs : List Char}
    (h : scanFrom (held.map Held.sequence) bs = cs.map some) :
    showFrom held bs = cs.map .char := by
  induction bs generalizing held cs with
  | nil =>
    cases held with
    | none =>
      obtain rfl := List.map_eq_nil_iff.1 h.symm
      rfl
    | some x => cases cs <;> simp [scanFrom] at h
  | cons b bs ih =>
    cases held with
    | none =>
      rw [Option.map_none, scanFrom_none_cons, start] at h
      rw [showFrom_none_cons, showFirst]
      split_ifs at h ⊢ with hascii
      · obtain ⟨c, cs, rfl⟩ : ∃ c cs', cs = c :: cs' := by
          cases cs <;> simp at h ⊢
        obtain ⟨hc, hrest⟩ := List.cons.inj h
        obtain rfl := Option.some.inj hc
        exact congrArg _ (@ih none _ hrest)
      · cases hlead : lead? b.toNat with
        | none =>
          rw [hlead] at h
          cases cs <;> simp at h
        | some p =>
          rw [hlead] at h
          exact @ih (some ⟨p, [b]⟩) _ h
    | some x =>
      rw [Option.map_some, scanFrom_some_cons, continueWith] at h
      rw [showFrom_some_cons, showNext]
      split_ifs at h ⊢ with hrange hlack
      · obtain ⟨c, cs, rfl⟩ : ∃ c cs', cs = c :: cs' := by
          cases cs <;> simp at h ⊢
        obtain ⟨hc, hrest⟩ := List.cons.inj h
        obtain rfl := Option.some.inj hc
        exact congrArg _ (@ih none _ hrest)
      · exact @ih (some ⟨_, x.bytes ++ [b]⟩) _ h
      · cases cs <;> simp at h

theorem ofFileBytes_encode (cs : List Char) : ofFileBytes (encode cs) = cs.map .char :=
  showFrom_of_scan (scan_encode cs)

/-- **A text without surrogates is listed as it is.** -/
@[simp] theorem listed_map_char (cs : List Char) : listed (cs.map .char) = cs.map .char := by
  rw [listed, fileBytes_map_char, ofFileBytes_encode]

/-! ## Slashes -/

/-- A slash ends whatever is under way. -/
theorem showFrom_slash {held : Option Held} (h : ∀ x ∈ held, x.Fits) (bs cs : List UInt8) :
    showFrom held (bs ++ 0x2F :: cs) = showFrom held bs ++ .char '/' :: ofFileBytes cs := by
  induction bs generalizing held with
  | nil =>
    cases held with
    | none => rfl
    | some x =>
      have hlow := (h x rfl).low
      have hrange : ¬ (x.sequence.low ≤ 0x2F ∧ 0x2F ≤ x.sequence.high) := by omega
      simp only [List.nil_append, showFrom, showNext]
      rw [if_neg (by simpa using hrange)]
      simp [showFirst, ofFileBytes]
  | cons b bs ih =>
    cases held with
    | none =>
      rw [List.cons_append, showFrom_none_cons, showFrom_none_cons, ih (showFirst_spells b).2.2,
        List.append_assoc]
    | some x =>
      rw [List.cons_append, showFrom_some_cons, showFrom_some_cons,
        ih (showNext_spells (h x rfl) b).2.2, List.append_assoc]

/-- The parts of a text around a slash are shown by themselves. -/
theorem listed_append_slash (t u : Text) :
    listed (t ++ .char '/' :: u) = listed t ++ .char '/' :: listed u := by
  have hslash : (CodePoint.char '/').fileBytes = [0x2F] := by decide
  rw [listed, fileBytes_append, fileBytes_cons, hslash]
  exact showFrom_slash (by simp) _ _

end SymbolAtlas.Text
