import SymbolAtlas.Text.Utf8

/-!
# UTF-8, written and read back

Reading the bytes of characters gives the characters, in whatever way broken bytes are treated:
`decode_encode`, `decodeLossy_encode`. The scanner takes exactly the bytes of one character
(`scanFrom_encodeChar`), one statement for each number of bytes.

Conversely, an ASCII character other than U+0000 comes from its own byte only: nothing that is
broken or overlong is read as one (`scan_eq_of_ascii`).
-/

namespace SymbolAtlas.Text.Utf8

theorem toNat_valid (c : Char) : c.toNat < 0xD800 ∨ 0xDFFF < c.toNat ∧ c.toNat < 0x110000 :=
  c.valid

theorem toNat_toUInt8 {n : Nat} (h : n < 256) : n.toUInt8.toNat = n := by
  simpa using Nat.mod_eq_of_lt h

/-! ## One byte more -/

theorem scanFrom_none_cons (b : UInt8) (bs : List UInt8) :
    scanFrom none (b :: bs) = (start b.toNat).1 ++ scanFrom (start b.toNat).2 bs := rfl

theorem scanFrom_some_cons (p : Partial) (b : UInt8) (bs : List UInt8) :
    scanFrom (some p) (b :: bs) =
      (continueWith p b.toNat).1 ++ scanFrom (continueWith p b.toNat).2 bs := rfl

/-- A byte that opens a sequence. -/
theorem scanFrom_lead {n : Nat} {p : Partial} (hn : n < 256) (h : 0x80 ≤ n) (hp : lead? n = some p)
    (bs : List UInt8) : scanFrom none (n.toUInt8 :: bs) = scanFrom (some p) bs := by
  have hstart : start n = ([], some p) := by simp [start, hp, Nat.not_lt.2 h]
  rw [scanFrom_none_cons, toNat_toUInt8 hn, hstart, List.nil_append]

/-- A byte inside a sequence, more being needed. -/
theorem scanFrom_middle {p : Partial} {n : Nat} (hlow : p.low ≤ 0x80 + n % 64)
    (hhigh : 0x80 + n % 64 ≤ p.high) (hlack : 1 < p.lacking) (bs : List UInt8) :
    scanFrom (some p) ((0x80 + n % 64).toUInt8 :: bs) =
      scanFrom (some { bits := p.bits * 64 + n % 64, lacking := p.lacking - 1 }) bs := by
  have hmod : (0x80 + n % 64) % 64 = n % 64 := by omega
  have hstep : continueWith p (0x80 + n % 64) =
      ([], some { bits := p.bits * 64 + n % 64, lacking := p.lacking - 1 }) := by
    simp [continueWith, hlow, hhigh, hmod, Nat.not_le.2 hlack]
  rw [scanFrom_some_cons, toNat_toUInt8 (by omega), hstep, List.nil_append]

/-- The last byte of a sequence. -/
theorem scanFrom_last {p : Partial} {n : Nat} (hlow : p.low ≤ 0x80 + n % 64)
    (hhigh : 0x80 + n % 64 ≤ p.high) (hlack : p.lacking ≤ 1) (bs : List UInt8) :
    scanFrom (some p) ((0x80 + n % 64).toUInt8 :: bs) =
      some (Char.ofNat (p.bits * 64 + n % 64)) :: scanFrom none bs := by
  have hmod : (0x80 + n % 64) % 64 = n % 64 := by omega
  have hstep : continueWith p (0x80 + n % 64) =
      ([some (Char.ofNat (p.bits * 64 + n % 64))], none) := by
    simp [continueWith, hlow, hhigh, hmod, hlack]
  rw [scanFrom_some_cons, toNat_toUInt8 (by omega), hstep, List.singleton_append]

/-! ## One character -/

theorem lead?_two {n : Nat} (h : 0x80 ≤ n) (h' : n < 0x800) :
    lead? (0xC0 + n / 64) = some { bits := n / 64, lacking := 1 } := by
  have h₁ : 0xC2 ≤ 0xC0 + n / 64 := by omega
  have h₂ : 0xC0 + n / 64 ≤ 0xDF := by omega
  simp [lead?, h₁, h₂]

/-- The sequence that the first byte of three opens: the range of the second byte leaves out what
two bytes can write, and the surrogates. -/
theorem exists_lead?_three {n : Nat} (h : 0x800 ≤ n) (h' : n < 0x10000)
    (hs : n < 0xD800 ∨ 0xDFFF < n) :
    ∃ p, lead? (0xE0 + n / 4096) = some p ∧ p.bits = n / 4096 ∧ p.lacking = 2 ∧
      p.low ≤ 0x80 + n / 64 % 64 ∧ 0x80 + n / 64 % 64 ≤ p.high := by
  have h₁ : ¬ 0xE0 + n / 4096 ≤ 0xDF := by omega
  by_cases hE0 : n / 4096 = 0
  · rw [hE0]
    exact ⟨_, rfl, rfl, rfl, by dsimp only; omega, by dsimp only; omega⟩
  by_cases hED : n / 4096 = 13
  · rw [hED]
    exact ⟨_, rfl, rfl, rfl, by dsimp only; omega, by dsimp only; omega⟩
  have h₂ : 0xE0 + n / 4096 ≠ 0xED := by omega
  have h₃ : 0xE1 ≤ 0xE0 + n / 4096 := by omega
  have h₄ : 0xE0 + n / 4096 ≤ 0xEF := by omega
  refine ⟨{ bits := n / 4096, lacking := 2 }, ?_, rfl, rfl, by dsimp only; omega,
    by dsimp only; omega⟩
  simp only [lead?]
  rw [if_neg (by simp; omega), if_neg (by simp; omega), if_neg (by simp; omega),
    if_pos (by simp; omega)]
  simp

/-- The sequence that the first byte of four opens: the range of the second byte leaves out what
three bytes can write, and what is above the last character. -/
theorem exists_lead?_four {n : Nat} (h : 0x10000 ≤ n) (h' : n < 0x110000) :
    ∃ p, lead? (0xF0 + n / 262144) = some p ∧ p.bits = n / 262144 ∧ p.lacking = 3 ∧
      p.low ≤ 0x80 + n / 4096 % 64 ∧ 0x80 + n / 4096 % 64 ≤ p.high := by
  have hcases : n / 262144 = 0 ∨ n / 262144 = 1 ∨ n / 262144 = 2 ∨ n / 262144 = 3 ∨
      n / 262144 = 4 := by omega
  rcases hcases with hn | hn | hn | hn | hn <;> rw [hn]
  all_goals exact ⟨_, rfl, rfl, rfl, by dsimp only; omega, by dsimp only; omega⟩

theorem scanFrom_encodeChar (c : Char) (bs : List UInt8) :
    scanFrom none (encodeChar c ++ bs) = some c :: scanFrom none bs := by
  have hvalid := toNat_valid c
  have hchar : Char.ofNat c.toNat = c := Char.ofNat_toNat c
  generalize hn : c.toNat = n at hvalid hchar
  unfold encodeChar
  rw [hn]
  dsimp only
  split
  · next h₁ =>
    have hstart : start n = ([some c], none) := by simp [start, h₁, hchar]
    rw [List.singleton_append, scanFrom_none_cons, toNat_toUInt8 (by omega), hstart]
    rfl
  split
  · next h₁ h₂ =>
    have hbits : n / 64 * 64 + n % 64 = n := by omega
    have hlast := scanFrom_last (p := { bits := n / 64, lacking := 1 }) (n := n)
      (by dsimp only; omega) (by dsimp only; omega) (Nat.le_refl 1) bs
    rw [List.cons_append, List.singleton_append,
      scanFrom_lead (by omega) (by omega) (lead?_two (by omega) h₂), hlast]
    simp only [hbits, hchar]
  split
  · next h₁ h₂ h₃ =>
    obtain ⟨p, hp, hbits, hlack, hlow, hhigh⟩ :=
      exists_lead?_three (Nat.not_lt.1 h₂) h₃ (hvalid.imp id And.left)
    have hall : (n / 4096 * 64 + n / 64 % 64) * 64 + n % 64 = n := by omega
    have hlast := scanFrom_last
      (p := { bits := p.bits * 64 + n / 64 % 64, lacking := p.lacking - 1 }) (n := n)
      (by dsimp only; omega) (by dsimp only; omega) (by dsimp only; omega) bs
    rw [List.cons_append, List.cons_append, List.singleton_append,
      scanFrom_lead (by omega) (by omega) hp, scanFrom_middle hlow hhigh (by omega), hlast]
    simp only [hbits, hall, hchar]
  · next h₁ h₂ h₃ =>
    obtain ⟨p, hp, hbits, hlack, hlow, hhigh⟩ := exists_lead?_four (Nat.not_lt.1 h₃) (by omega)
    have hall : ((n / 262144 * 64 + n / 4096 % 64) * 64 + n / 64 % 64) * 64 + n % 64 = n := by
      omega
    let q : Partial := { bits := p.bits * 64 + n / 4096 % 64, lacking := p.lacking - 1 }
    let r : Partial := { bits := q.bits * 64 + n / 64 % 64, lacking := q.lacking - 1 }
    have hq : q.lacking = 2 := by dsimp only [q]; omega
    have hr : r.lacking = 1 := by dsimp only [r]; omega
    have hmiddle := scanFrom_middle (p := q) (n := n / 64) (by dsimp only [q]; omega)
      (by dsimp only [q]; omega) (by omega) ((0x80 + n % 64).toUInt8 :: bs)
    have hlast := scanFrom_last (p := r) (n := n) (by dsimp only [r]; omega)
      (by dsimp only [r]; omega) (by omega) bs
    rw [List.cons_append, List.cons_append, List.cons_append, List.singleton_append,
      scanFrom_lead (by omega) (by omega) hp, scanFrom_middle hlow hhigh (by omega), hmiddle, hlast]
    simp only [r, q, hbits, hall, hchar]

/-! ## Whole lists -/

/-- Characters in front of any bytes are read one by one. -/
theorem scan_encode_append (cs : List Char) (bs : List UInt8) :
    scan (encode cs ++ bs) = cs.map some ++ scan bs := by
  induction cs with
  | nil => rfl
  | cons c cs ih =>
    rw [encode, List.flatMap_cons, List.append_assoc, scan, scanFrom_encodeChar]
    simpa [scan, encode] using ih

theorem scan_encode (cs : List Char) : scan (encode cs) = cs.map some := by
  simpa [scan, scanFrom] using scan_encode_append cs []

/-- **Reading the bytes of characters gives the characters.** -/
theorem decode_encode (cs : List Char) : decode (encode cs) = some cs := by
  rw [decode, scan_encode]
  induction cs with
  | nil => rfl
  | cons c cs ih => simp [ih]

theorem decodeLossy_encode (cs : List Char) : decodeLossy (encode cs) = cs := by
  simp [decodeLossy, scan_encode, Function.comp_def]

theorem encode_append (cs ds : List Char) : encode (cs ++ ds) = encode cs ++ encode ds := by
  simp [encode]

/-! ## ASCII characters -/

theorem toNat_ofNat_or (n : Nat) : (Char.ofNat n).toNat = n ∨ (Char.ofNat n).toNat = 0 := by
  by_cases h : n.isValidChar
  · rw [Char.ofNat, dif_pos h]
    exact .inl rfl
  · rw [Char.ofNat, dif_neg h]
    exact .inr rfl

theorem exists_of_mem_encode {cs : List Char} (h : ∀ c ∈ cs, c.toNat < 0x80) {b : UInt8}
    (hb : b ∈ encode cs) : ∃ c ∈ cs, b.toNat = c.toNat := by
  obtain ⟨c, hc, hbc⟩ := List.mem_flatMap.1 hb
  have hlt := h c hc
  have hchar : encodeChar c = [c.toNat.toUInt8] := by simp [encodeChar, hlt]
  rw [hchar, List.mem_singleton] at hbc
  exact ⟨c, hc, hbc ▸ toNat_toUInt8 (by omega)⟩

/-- The sequences that are no way of writing a character below U+0080: what has been read of them
and the range of the next byte see to it. -/
structure Partial.Long (p : Partial) : Prop where
  low : 0x80 ≤ p.low
  high : p.high ≤ 0xBF
  bits : 2 ≤ p.bits ∨ 2 ≤ p.lacking ∧ 2 ≤ p.bits * 64 + (p.low - 0x80)

theorem lead?_long {b : Nat} {p : Partial} (h : lead? b = some p) : p.Long := by
  unfold lead? at h
  split at h
  · next hb =>
    simp only [Bool.and_eq_true, decide_eq_true_eq] at hb
    obtain rfl := Option.some.inj h
    exact ⟨by simp, by simp, .inl (by dsimp only; omega)⟩
  split at h
  · obtain rfl := Option.some.inj h
    exact ⟨by simp, by simp, .inr (by simp)⟩
  split at h
  · obtain rfl := Option.some.inj h
    exact ⟨by simp, by simp, .inl (by simp)⟩
  split at h
  · next hb =>
    simp only [Bool.and_eq_true, decide_eq_true_eq] at hb
    obtain rfl := Option.some.inj h
    exact ⟨by simp, by simp, .inr ⟨by simp, by dsimp only; omega⟩⟩
  split at h
  · obtain rfl := Option.some.inj h
    exact ⟨by simp, by simp, .inr (by simp)⟩
  split at h
  · next hb =>
    simp only [Bool.and_eq_true, decide_eq_true_eq] at hb
    obtain rfl := Option.some.inj h
    exact ⟨by simp, by simp, .inr ⟨by simp, by dsimp only; omega⟩⟩
  split at h
  · obtain rfl := Option.some.inj h
    exact ⟨by simp, by simp, .inl (by simp)⟩
  · cases h

/-- A sequence under way comes to something that is no ASCII character other than U+0000. -/
theorem Partial.Long.exists_mem {p : Partial} (h : p.Long) (bs : List UInt8) :
    ∃ e ∈ scanFrom (some p) bs, ∀ c, 0 < c.toNat → c.toNat < 0x80 → e ≠ some c := by
  induction bs generalizing p with
  | nil => exact ⟨none, List.mem_singleton_self _, by simp⟩
  | cons b bs ih =>
    obtain ⟨hlow, hhigh, hbits⟩ := h
    rw [scanFrom_some_cons]
    unfold continueWith
    split
    · next hb =>
      simp only [Bool.and_eq_true, decide_eq_true_eq] at hb
      dsimp only
      split
      · next hlack =>
        refine ⟨_, List.mem_append_left _ (List.mem_singleton_self _), ?_⟩
        intro c hpos hc heq
        have hbits' : 2 ≤ p.bits := hbits.resolve_right fun hr => by omega
        obtain rfl := Option.some.inj heq
        rcases toNat_ofNat_or (p.bits * 64 + b.toNat % 64) with hn | hn <;> omega
      · obtain ⟨e, he, hne⟩ := ih
          (p := { bits := p.bits * 64 + b.toNat % 64, lacking := p.lacking - 1 })
          ⟨by simp, by simp, .inl (by dsimp only; omega)⟩
        exact ⟨e, List.mem_append_right _ he, hne⟩
    · exact ⟨none, List.mem_append_left _ (List.mem_cons_self ..), by simp⟩

/-- **Bytes that come to ASCII characters other than U+0000 are these characters.** -/
theorem scan_eq_of_ascii {bs : List UInt8}
    (h : ∀ e ∈ scan bs, ∃ c, e = some c ∧ 0 < c.toNat ∧ c.toNat < 0x80) :
    scan bs = bs.map fun b => some (Char.ofNat b.toNat) := by
  induction bs with
  | nil => rfl
  | cons b bs ih =>
    rw [scan, scanFrom_none_cons] at h ⊢
    unfold start at h ⊢
    split at h
    · next hb =>
      rw [if_pos hb, List.map_cons, ← ih fun e he => h e (List.mem_append_right _ he)]
      rfl
    · next hb =>
      split at h
      · next p hp =>
        obtain ⟨e, he, hne⟩ := (lead?_long hp).exists_mem bs
        obtain ⟨c, rfl, hpos, hlt⟩ := h e (List.mem_append_right _ he)
        exact absurd rfl (hne c hpos hlt)
      · obtain ⟨c, hc, -⟩ := h none (List.mem_append_left _ (List.mem_singleton_self _))
        cases hc

/-- The other way round, an ASCII byte between characters is a character. -/
theorem scan_ascii {bs : List UInt8} (h : ∀ b ∈ bs, b.toNat < 0x80) :
    scan bs = bs.map fun b => some (Char.ofNat b.toNat) := by
  induction bs with
  | nil => rfl
  | cons b bs ih =>
    rw [scan, scanFrom_none_cons, start, if_pos (h b (List.mem_cons_self ..)), List.map_cons,
      ← ih fun b hb => h b (List.mem_cons_of_mem _ hb)]
    rfl

/-! ## How many bytes there are -/

theorem length_encode_le (cs : List Char) : (encode cs).length ≤ 4 * cs.length := by
  induction cs with
  | nil => exact Nat.le_refl 0
  | cons c cs ih =>
    have hchar : (encodeChar c).length ≤ 4 := by
      unfold encodeChar
      dsimp only
      split
      · simp
      · split
        · simp
        · split <;> simp
    rw [encode, List.flatMap_cons, List.length_append, List.length_cons]
    rw [encode] at ih
    omega

end SymbolAtlas.Text.Utf8
