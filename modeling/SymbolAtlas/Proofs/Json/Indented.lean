import SymbolAtlas.Proofs.Json.RoundTrip

/-!
# Values spread over lines

The text of a value for people is read as the value again, as that on the wire is. What is new are
the gaps, which stand where a reader skips them, and the escapes of everything beyond ASCII: one
unit for a character of the basic plane and a pair of surrogates for any other.

* `Json.Reader.stringTail_escapeAscii` — one character, whatever number of escapes it takes;
* `Json.Plain.spreadsBack` — a value at any column, in front of whatever may follow it;
* `Json.Plain.read_renderIndented` — a whole text, with what blanks come after it;
* `Json.Plain.plainText` — such a text is printable ASCII and line feeds.
-/

namespace SymbolAtlas.Json

open Text

/-! ## Strings -/

/-- The characters of an ASCII string between its quotes. -/
def escapedAscii (cs : List Char) : List Char :=
  cs.flatMap escapeAsciiChar

theorem quoteAscii_ofChars (cs : List Char) :
    quoteAscii (ofChars cs) = '"' :: (escapedAscii cs ++ ['"']) := by
  rw [quoteAscii, ofChars, List.flatMap_map]
  rfl

/-- A character that has an escape of its own or is printable ASCII is written as on the wire. -/
theorem escapeAsciiChar_eq_wire {c : Char} (h : c.toNat < 0x7F) :
    escapeAsciiChar c = (escapeControl c).getD [c] := by
  unfold escapeAsciiChar
  cases escapeControl c with
  | none => simp [h]
  | some cs => rfl

theorem escapeControl_of_le {c : Char} (h : 0x7F ≤ c.toNat) : escapeControl c = none := by
  have hne : ∀ d : Char, d.toNat < 0x7F → c ≠ d := by
    rintro d hd rfl
    omega
  simp [escapeControl, hne '"' (by decide), hne '\\' (by decide), hne '\n' (by decide),
    hne '\r' (by decide), hne '\t' (by decide), hne '\x08' (by decide), hne '\x0C' (by decide)]
  omega

namespace Reader

/-- A character of the basic plane is read from its unit. -/
theorem stringTail_escapeUnit {c : Char} (h : c.toNat < 0x10000) (done : Text) (rest : List Char) :
    stringTail done (escapeUnit c.toNat ++ rest) = stringTail (.char c :: done) rest := by
  obtain ⟨d₁, d₂, d₃, d₄, hdigits, hunit⟩ := hexUnit?_hexDigits h
  have hvalid : c.toNat < 0xD800 ∨ 0xDFFF < c.toNat := by
    obtain h | h := c.valid
    · exact .inl h
    · exact .inr h.1
  rw [escapeUnit, hdigits]
  simpa [Char.ofNat_toNat] using stringTail_unit hvalid hunit done rest

/-- A character beyond the basic plane is read from its pair of surrogates. -/
theorem stringTail_escapePair {c : Char} (h : 0x10000 ≤ c.toNat) (done : Text)
    (rest : List Char) :
    stringTail done (escapeUnit (0xD800 + (c.toNat - 0x10000) / 1024) ++
        escapeUnit (0xDC00 + (c.toNat - 0x10000) % 1024) ++ rest) =
      stringTail (.char c :: done) rest := by
  have hbound : c.toNat < 0x110000 := by
    obtain h | h := c.valid
    · exact h.trans (by decide)
    · exact h.2
  obtain ⟨m, hm⟩ : ∃ m, m = c.toNat - 0x10000 := ⟨_, rfl⟩
  obtain ⟨a, b, c', d, hdigits, hunit⟩ := hexUnit?_hexDigits (n := 0xD800 + m / 1024) (by omega)
  obtain ⟨e, f, g, h', hdigits', hunit'⟩ := hexUnit?_hexDigits (n := 0xDC00 + m % 1024) (by omega)
  have hhigh : isHighHalf (0xD800 + m / 1024) = true := by simp [isHighHalf]; omega
  have hlow : isLowHalf (0xDC00 + m % 1024) = true := by simp [isLowHalf]; omega
  have hvalue : 0x10000 + (0xD800 + m / 1024 - 0xD800) * 1024 + (0xDC00 + m % 1024 - 0xDC00) =
      c.toNat := by omega
  have hpair : pairChar? (0xD800 + m / 1024) (some (0xDC00 + m % 1024)) = some c := by
    simp only [pairChar?, hhigh, hlow, Bool.and_self, if_true, hvalue, Char.ofNat_toNat]
  rw [← hm, escapeUnit, escapeUnit, hdigits, hdigits']
  simp only [List.cons_append, List.nil_append]
  rw [stringTail.eq_3, hunit]
  simp only [hunit', hpair]

/-- **A character is read from what is written for it.** -/
theorem stringTail_escapeAscii (c : Char) (done : Text) (rest : List Char) :
    stringTail done (escapeAsciiChar c ++ rest) = stringTail (.char c :: done) rest := by
  by_cases hlow : c.toNat < 0x7F
  · rw [escapeAsciiChar_eq_wire hlow]
    exact stringTail_escape c done rest
  have hnone := escapeControl_of_le (c := c) (by omega)
  by_cases hbasic : c.toNat < 0x10000
  · have hunit : escapeAsciiChar c = escapeUnit c.toNat := by
      simp [escapeAsciiChar, hnone, hlow, hbasic]
    rw [hunit]
    exact stringTail_escapeUnit hbasic done rest
  · have hpair : escapeAsciiChar c = escapeUnit (0xD800 + (c.toNat - 0x10000) / 1024) ++
        escapeUnit (0xDC00 + (c.toNat - 0x10000) % 1024) := by
      simp [escapeAsciiChar, hnone, hlow, hbasic]
    rw [hpair]
    exact stringTail_escapePair (by omega) done rest

theorem string_escapedAscii (cs rest : List Char) :
    string (escapedAscii cs ++ '"' :: rest) = .ok (ofChars cs, rest) :=
  string_flatMap stringTail_escapeAscii cs rest

/-! ## Gaps -/

theorem skipGap_newline (column : Nat) (cs : List Char) :
    skipGap (newline column ++ cs) = skipGap cs := by
  have hblank : ∀ n, skipGap (List.replicate n ' ' ++ cs) = skipGap cs := by
    intro n
    induction n with
    | zero => rfl
    | succ n ih => exact ih
  exact hblank (2 * column)

/-- A new line in front of a value is skipped. -/
theorem Begins.skipGap_newline {cs : List Char} (h : Begins cs) (column : Nat) (rest : List Char) :
    Reader.skipGap (newline column ++ (cs ++ rest)) = cs ++ rest :=
  (Reader.skipGap_newline column _).trans (h.skipGap rest)

theorem follows_newline (column : Nat) (rest : List Char) : Follows (newline column ++ rest) :=
  Follows.cons (by simp [isGap]) (List.replicate (2 * column) ' ' ++ rest)

/-! ## Values -/

variable {depth column : Nat} {v : Json}

/-- The value, spread over lines at any column, is read in front of whatever may follow it. -/
def SpreadsBack (depth : Nat) (v : Json) : Prop :=
  ∀ column, Begins (indentChars column v) ∧
    ∀ fuel rest, (indentChars column v).length < fuel → Follows rest →
      value fuel depth (indentChars column v ++ rest) = .ok (v, rest)

/-- What is no string and has nothing in it is written as on the wire. -/
theorem ReadsBack.spreads (h : ReadsBack depth v) (hscalar : v.render = (scalarText v : Text))
    (hchars : ∀ column, indentChars column v = (scalarText v).toList) : SpreadsBack depth v := by
  intro column
  obtain ⟨cs, hcs, hread⟩ := h
  obtain rfl : (scalarText v).toList = cs :=
    List.map_injective_iff.2 (fun _ _ h => CodePoint.char.inj h) (hscalar.symm.trans hcs)
  rw [hchars]
  exact hread

theorem spreadsBack_str (cs : List Char) : SpreadsBack depth (.str (ofChars cs)) := by
  intro column
  rw [indentChars, quoteAscii_ofChars]
  refine ⟨⟨'"', _, rfl, rfl, by decide⟩, fun fuel rest hfuel hr => ?_⟩
  obtain ⟨fuel, rfl⟩ : ∃ k, fuel = k + 1 := ⟨fuel - 1, by omega⟩
  rw [List.cons_append, List.append_assoc, List.singleton_append, value, string_escapedAscii]

/-- The items of an array that has some, up to the bracket on a line of its own. -/
theorem items_indented {vs : List Json} (hne : vs ≠ []) (h : ∀ v ∈ vs, SpreadsBack depth v)
    (column outer : Nat) : Begins (indentItems column vs) ∧
      ∀ fuel done rest, (indentItems column vs).length + 1 < fuel →
        items fuel depth done (indentItems column vs ++ (newline outer ++ ']' :: rest)) =
          .ok (.arr (done.reverse ++ vs), rest) := by
  induction vs with
  | nil => exact absurd rfl hne
  | cons v vs ih =>
    obtain ⟨hbegins, hvalue⟩ := h v (List.mem_cons_self ..) column
    cases vs with
    | nil =>
      rw [indentItems]
      refine ⟨hbegins, fun fuel done rest hfuel => ?_⟩
      obtain ⟨fuel, rfl⟩ : ∃ k, fuel = k + 1 := ⟨fuel - 1, by omega⟩
      rw [items, hvalue fuel _ (by omega) (follows_newline _ _)]
      simp only [Reader.skipGap_newline, skipGap_cons (c := ']') rfl]
      exact congrArg (fun vs => Except.ok (Json.arr vs, rest)) (List.reverse_cons ..)
    | cons w vs =>
      obtain ⟨hbegins', hitems⟩ :=
        ih (List.cons_ne_nil w vs) fun u hu => h u (List.mem_cons_of_mem _ hu)
      rw [indentItems]
      refine ⟨(hbegins.append _).append _, fun fuel done rest hfuel => ?_⟩
      simp only [List.length_append, List.length_cons] at hfuel
      obtain ⟨fuel, rfl⟩ : ∃ k, fuel = k + 1 := ⟨fuel - 1, by omega⟩
      rw [List.append_assoc, List.append_assoc, List.cons_append, items,
        hvalue fuel _ (by omega) (.cons (by simp) _)]
      simp only [skipGap_cons (c := ',') rfl]
      rw [hbegins'.skipGap_newline, hitems fuel _ _ (by omega)]
      simp

theorem spreadsBack_arr {vs : List Json} (h : ∀ v ∈ vs, SpreadsBack depth v) :
    SpreadsBack (depth + 1) (.arr vs) := by
  intro column
  cases vs with
  | nil =>
    rw [indentChars]
    refine ⟨⟨'[', _, rfl, rfl, by decide⟩, fun fuel rest hfuel hr => ?_⟩
    obtain ⟨fuel, rfl⟩ : ∃ k, fuel = k + 1 := ⟨fuel - 1, by omega⟩
    rfl
  | cons v vs =>
    obtain ⟨hbegins, hitems⟩ := items_indented (List.cons_ne_nil v vs) h (column + 1) column
    rw [indentChars]
    refine ⟨⟨'[', _, rfl, rfl, by decide⟩, fun fuel rest hfuel hr => ?_⟩
    simp only [List.length_append, List.length_cons] at hfuel
    obtain ⟨fuel, rfl⟩ : ∃ k, fuel = k + 1 := ⟨fuel - 1, by omega⟩
    have htext : '[' :: newline (column + 1) ++ indentItems (column + 1) (v :: vs) ++
        newline column ++ [']'] ++ rest = '[' :: (newline (column + 1) ++
          (indentItems (column + 1) (v :: vs) ++ (newline column ++ ']' :: rest))) := by
      simp
    have hskip := hbegins.skipGap_newline (column + 1) (newline column ++ ']' :: rest)
    have hread := hitems fuel [] rest (by omega)
    obtain ⟨c, more, hcs, -, hend⟩ := hbegins
    rw [htext, value.eq_4, hskip]
    rw [hcs, List.cons_append] at hread ⊢
    split
    · next heq => exact absurd (List.cons.inj heq).1 hend
    · exact hread

/-- The fields of an object that has some, as the items of an array are read. -/
theorem fields_indented {fs : Object} (hne : fs ≠ []) (h : ∀ f ∈ fs, SpreadsBack depth f.2)
    (scalar : ∀ f ∈ fs, ∃ cs, f.1 = ofChars cs) (column outer : Nat) :
    (∃ cs, indentFields column fs = '"' :: cs) ∧
      ∀ fuel done rest, (indentFields column fs).length + 1 < fuel →
        fields fuel depth done (indentFields column fs ++ (newline outer ++ '\x7d' :: rest)) =
          .ok (.obj (Fields.ofPairs (done.reverse ++ fs)), rest) := by
  induction fs with
  | nil => exact absurd rfl hne
  | cons f fs ih =>
    obtain ⟨name, v⟩ := f
    obtain ⟨k, rfl⟩ := scalar (name, v) (List.mem_cons_self ..)
    have hv : SpreadsBack depth v := h (ofChars k, v) (List.mem_cons_self ..)
    obtain ⟨hbegins, hvalue⟩ := hv column
    cases fs with
    | nil =>
      rw [indentFields, quoteAscii_ofChars]
      refine ⟨⟨_, rfl⟩, fun fuel done rest hfuel => ?_⟩
      simp only [List.length_append, List.length_cons] at hfuel
      obtain ⟨fuel, rfl⟩ : ∃ k, fuel = k + 1 := ⟨fuel - 1, by omega⟩
      have hread := hvalue fuel _ (by omega) (follows_newline outer ('\x7d' :: rest))
      have hend : skipGap (newline outer ++ '\x7d' :: rest) = '\x7d' :: rest :=
        (Reader.skipGap_newline ..).trans (skipGap_cons rfl rest)
      simpa using fields_brace (string_escapedAscii k) hbegins hend hread done
    | cons g fs =>
      obtain ⟨⟨cs, hcs⟩, hfields⟩ := ih (List.cons_ne_nil g fs)
        (fun u hu => h u (List.mem_cons_of_mem _ hu))
        fun u hu => scalar u (List.mem_cons_of_mem _ hu)
      rw [indentFields, quoteAscii_ofChars]
      refine ⟨⟨_, rfl⟩, fun fuel done rest hfuel => ?_⟩
      simp only [List.length_append, List.length_cons] at hfuel
      obtain ⟨fuel, rfl⟩ : ∃ k, fuel = k + 1 := ⟨fuel - 1, by omega⟩
      have hquote : Begins (indentFields column (g :: fs)) := ⟨'"', cs, hcs, rfl, by decide⟩
      have hread := hvalue fuel (',' :: (newline column ++ (indentFields column (g :: fs) ++
        (newline outer ++ '\x7d' :: rest)))) (by omega) (.cons (by simp) _)
      have hfirst := fields_comma (string_escapedAscii k) hbegins hread done
      rw [hquote.skipGap_newline, hfields fuel ((ofChars k, v) :: done) rest (by omega)] at hfirst
      simpa using hfirst

theorem spreadsBack_obj {fs : Object} (h : ∀ f ∈ fs, SpreadsBack depth f.2)
    (scalar : ∀ f ∈ fs, ∃ cs, f.1 = ofChars cs) (distinct : (Fields.names fs).Nodup) :
    SpreadsBack (depth + 1) (.obj fs) := by
  intro column
  cases fs with
  | nil =>
    rw [indentChars]
    refine ⟨⟨'\x7b', _, rfl, rfl, by decide⟩, fun fuel rest hfuel hr => ?_⟩
    obtain ⟨fuel, rfl⟩ : ∃ k, fuel = k + 1 := ⟨fuel - 1, by omega⟩
    rfl
  | cons f fs =>
    obtain ⟨⟨cs, hcs⟩, hfields⟩ :=
      fields_indented (List.cons_ne_nil f fs) h scalar (column + 1) column
    rw [indentChars]
    refine ⟨⟨'\x7b', _, rfl, rfl, by decide⟩, fun fuel rest hfuel hr => ?_⟩
    simp only [List.length_append, List.length_cons] at hfuel
    obtain ⟨fuel, rfl⟩ : ∃ k, fuel = k + 1 := ⟨fuel - 1, by omega⟩
    have htext : '\x7b' :: newline (column + 1) ++ indentFields (column + 1) (f :: fs) ++
        newline column ++ ['\x7d'] ++ rest = '\x7b' :: (newline (column + 1) ++
          (indentFields (column + 1) (f :: fs) ++ (newline column ++ '\x7d' :: rest))) := by
      simp
    have hquote : Begins (indentFields (column + 1) (f :: fs)) :=
      ⟨'"', cs, hcs, rfl, by decide⟩
    have hskip := hquote.skipGap_newline (column + 1) (newline column ++ '\x7d' :: rest)
    have hread := hfields fuel [] rest (by omega)
    rw [List.reverse_nil, List.nil_append, Fields.ofPairs_eq_self distinct] at hread
    rw [htext, value.eq_6, hskip]
    rw [hcs, List.cons_append] at hread ⊢
    exact hread

end Reader

/-- **A plain value spread over lines is read as itself**, at any column and in front of whatever
may follow it. By induction on its shape, one statement for each. -/
theorem Plain.spreadsBack {depth : Nat} {v : Json} (h : Plain depth v) :
    Reader.SpreadsBack depth v := by
  induction h with
  | null => exact Reader.readsBack_null.spreads (by rw [render]) fun _ => by rw [indentChars]
  | bool b => exact (Reader.readsBack_bool b).spreads (by rw [render]) fun _ => by rw [indentChars]
  | int short =>
    exact (Reader.readsBack_int short).spreads (by rw [render]) fun _ => by rw [indentChars]
  | str cs => exact Reader.spreadsBack_str cs
  | arr _ ih => exact Reader.spreadsBack_arr ih
  | obj _ scalar distinct ih => exact Reader.spreadsBack_obj ih scalar distinct

/-- **The text of a plain value is read as the value**, whatever gap comes after it. -/
theorem Plain.read_renderIndented {depth : Nat} {v : Json} (h : Plain depth v) {limit : Nat}
    (hdepth : depth ≤ limit) {gap : String} (hgap : ∀ c ∈ gap.toList, Reader.isGap c) :
    read limit (v.renderIndented ++ gap) = .ok v := by
  obtain ⟨hbegins, hvalue⟩ := (h.mono hdepth).spreadsBack 0
  have hfollows : Reader.Follows gap.toList := fun c hc =>
    .inr (.inr (.inr (hgap c (List.mem_of_head? hc))))
  have hend : Reader.skipGap gap.toList = [] := List.dropWhile_eq_nil_iff.2 hgap
  have hread := hvalue (2 * (indentChars 0 v ++ gap.toList).length + 2) gap.toList
    (by rw [List.length_append]; omega) hfollows
  rw [read, renderIndented, String.toList_append, String.toList_ofList, readChars,
    hbegins.skipGap, hread]
  simp only [hend]

example : (arr [.str "é😀", .arr []]).renderIndented =
    "[\n  \"\\u00e9\\ud83d\\ude00\",\n  []\n]" := by
  decide

/-! ## Plain text -/

/-- A printable ASCII character or a line feed. -/
@[simp] def IsTyped (c : Char) : Prop :=
  c = '\n' ∨ 0x20 ≤ c.toNat ∧ c.toNat < 0x7F

instance (c : Char) : Decidable (IsTyped c) :=
  inferInstanceAs (Decidable (_ ∨ _))

/-- All characters are printable ASCII characters or line feeds. -/
def IsPlainText (cs : List Char) : Prop :=
  cs.all (IsTyped ·)

instance (cs : List Char) : Decidable (IsPlainText cs) :=
  inferInstanceAs (Decidable (_ = true))

theorem isPlainText_iff {cs : List Char} : IsPlainText cs ↔ ∀ c ∈ cs, IsTyped c := by
  simp only [IsPlainText, List.all_eq_true, decide_eq_true_eq]

@[simp] theorem isPlainText_nil : IsPlainText [] :=
  rfl

@[simp] theorem isPlainText_cons {c : Char} {cs : List Char} :
    IsPlainText (c :: cs) ↔ IsTyped c ∧ IsPlainText cs := by
  simp [isPlainText_iff]

@[simp] theorem isPlainText_append {cs ds : List Char} :
    IsPlainText (cs ++ ds) ↔ IsPlainText cs ∧ IsPlainText ds := by
  simp only [isPlainText_iff, List.forall_mem_append]

theorem isPlainText_hexDigits (width n : Nat) : IsPlainText (hexDigits width n) := by
  have hdigit : ∀ k < 16, IsTyped (hexDigit k) := by decide
  induction width generalizing n with
  | zero => exact isPlainText_nil
  | succ width ih =>
    rw [hexDigits, isPlainText_append, isPlainText_cons]
    exact ⟨ih _, hdigit _ (Nat.mod_lt _ (by decide)), isPlainText_nil⟩

theorem isPlainText_escapeUnit (n : Nat) : IsPlainText (escapeUnit n) := by
  simp [escapeUnit, isPlainText_hexDigits]

theorem le_of_escapeControl {c : Char} (h : escapeControl c = none) : 0x20 ≤ c.toNat := by
  unfold escapeControl at h
  split_ifs at h
  omega

theorem isPlainText_escapeAsciiChar (c : Char) : IsPlainText (escapeAsciiChar c) := by
  unfold escapeAsciiChar
  split
  · next cs hcs =>
    unfold escapeControl at hcs
    split_ifs at hcs <;> cases hcs <;> simp [isPlainText_hexDigits]
  · next hnone =>
    dsimp only
    split_ifs with hlow hbasic
    · exact isPlainText_cons.2 ⟨.inr ⟨le_of_escapeControl hnone, hlow⟩, isPlainText_nil⟩
    · exact isPlainText_escapeUnit _
    · exact isPlainText_append.2 ⟨isPlainText_escapeUnit _, isPlainText_escapeUnit _⟩

theorem isPlainText_quoteAscii (s : Text) : IsPlainText (quoteAscii s) := by
  have hpoint : ∀ p : CodePoint, IsPlainText (escapeAscii p)
    | .char c => isPlainText_escapeAsciiChar c
    | .surrogate _ => isPlainText_escapeUnit _
  have hbody : IsPlainText (s.flatMap escapeAscii) := by
    refine isPlainText_iff.2 fun c hc => ?_
    obtain ⟨p, -, hp⟩ := List.mem_flatMap.1 hc
    exact isPlainText_iff.1 (hpoint p) c hp
  simp [quoteAscii, hbody]

theorem isPlainText_newline (column : Nat) : IsPlainText (newline column) := by
  refine isPlainText_iff.2 fun c hc => ?_
  obtain rfl | hc := List.mem_cons.1 hc
  · decide
  · rw [List.eq_of_mem_replicate hc]
    decide

theorem isPlainText_indentItems {vs : List Json} {column : Nat}
    (h : ∀ v ∈ vs, IsPlainText (indentChars column v)) : IsPlainText (indentItems column vs) := by
  induction vs with
  | nil => exact isPlainText_nil
  | cons v vs ih =>
    rw [List.forall_mem_cons] at h
    cases vs with
    | nil => exact h.1
    | cons w vs =>
      rw [indentItems]
      simp [h.1, ih h.2, isPlainText_newline]

theorem isPlainText_indentFields {fs : Object} {column : Nat}
    (h : ∀ f ∈ fs, IsPlainText (indentChars column f.2)) : IsPlainText (indentFields column fs) := by
  induction fs with
  | nil => exact isPlainText_nil
  | cons f fs ih =>
    obtain ⟨k, v⟩ := f
    rw [List.forall_mem_cons] at h
    cases fs with
    | nil =>
      rw [indentFields]
      simp [h.1, isPlainText_quoteAscii]
    | cons g fs =>
      rw [indentFields]
      simp [h.1, ih h.2, isPlainText_quoteAscii, isPlainText_newline]

theorem isPlainText_toDigits (n : Nat) : IsPlainText (Nat.toDigits 10 n) := by
  refine isPlainText_iff.2 fun c hc => ?_
  have hdigit := Numeral.isDigit_iff.1 (Numeral.isDigit_of_mem_toDigits hc)
  exact .inr (by omega)

theorem isPlainText_repr (n : Int) : IsPlainText n.repr.toList := by
  rw [Int.repr_eq_if]
  split
  · rw [Nat.toList_repr]
    exact isPlainText_toDigits _
  · rw [String.toList_append, Nat.toList_repr, isPlainText_append]
    exact ⟨by decide, isPlainText_toDigits _⟩

/-- **A plain value spread over lines is written in ASCII**, whatever characters its texts have. -/
theorem Plain.plainText {depth : Nat} {v : Json} (h : Plain depth v) (column : Nat) :
    IsPlainText (indentChars column v) := by
  induction h generalizing column with
  | null => rw [indentChars]; decide
  | bool b => cases b <;> (rw [indentChars]; decide)
  | int short => rw [indentChars]; exact isPlainText_repr _
  | str cs => rw [indentChars]; exact isPlainText_quoteAscii _
  | @arr _ items _ ih =>
    cases items with
    | nil => rw [indentChars]; decide
    | cons v vs =>
      rw [indentChars]
      simp [isPlainText_newline, isPlainText_indentItems fun v hv => ih v hv (column + 1)]
  | @obj _ fields _ _ _ ih =>
    cases fields with
    | nil => rw [indentChars]; decide
    | cons f fs =>
      rw [indentChars]
      simp [isPlainText_newline, isPlainText_indentFields fun f hf => ih f hf (column + 1)]

end SymbolAtlas.Json
