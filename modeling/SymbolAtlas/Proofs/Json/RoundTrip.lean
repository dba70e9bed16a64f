import Mathlib.Data.List.TakeDrop
import SymbolAtlas.Json.Reader
import SymbolAtlas.Json.Writer
import SymbolAtlas.Proofs.Number.Decimal

/-!
# Messages, written and read back

The line that a message is written as is read as the message again, if it holds no floating-point
number and no lone surrogate, names each field once, and keeps to the limits of the reader.

* `Json.Plain` — these values, by how deeply they are nested;
* `Json.Reader.string_escaped`, `Json.Reader.number_toDigits` — the two kinds of token that are
  more than a word;
* `Json.Plain.readsBack` — a value in front of whatever may follow it;
* `Json.Plain.readChars_render` — a whole text;
* `Json.Scalar` — the values that have bytes at all.
-/

namespace SymbolAtlas.Json

open Text

/-- The values that the wire carries without loss, nested at most so many levels deep. -/
inductive Plain : Nat → Json → Prop
  | null {depth : Nat} : Plain depth .null
  | bool {depth : Nat} (b : Bool) : Plain depth (.bool b)
  | int {depth : Nat} {n : Int} (short : (Nat.toDigits 10 n.natAbs).length ≤ Numeral.maxDigits) :
      Plain depth (.int n)
  | str {depth : Nat} (cs : List Char) : Plain depth (.str (ofChars cs))
  | arr {depth : Nat} {items : List Json} (plain : ∀ v ∈ items, Plain depth v) :
      Plain (depth + 1) (.arr items)
  | obj {depth : Nat} {fields : Object} (plain : ∀ f ∈ fields, Plain depth f.2)
      (scalar : ∀ f ∈ fields, ∃ cs, f.1 = ofChars cs) (distinct : (Fields.names fields).Nodup) :
      Plain (depth + 1) (.obj fields)

theorem Plain.mono {d e : Nat} {v : Json} (h : Plain d v) (hde : d ≤ e) : Plain e v := by
  induction h generalizing e with
  | null => exact .null
  | bool b => exact .bool b
  | int short => exact .int short
  | str cs => exact .str cs
  | arr _ ih =>
    obtain ⟨k, rfl⟩ : ∃ k, e = k + 1 := ⟨e - 1, by omega⟩
    exact .arr fun v hv => ih v hv (by omega)
  | obj _ scalar distinct ih =>
    obtain ⟨k, rfl⟩ : ∃ k, e = k + 1 := ⟨e - 1, by omega⟩
    exact .obj (fun f hf => ih f hf (by omega)) scalar distinct

theorem Plain.nesting_le {depth : Nat} {v : Json} (h : Plain depth v) : v.nesting ≤ depth := by
  induction h with
  | null | bool | int | str => exact Nat.zero_le _
  | arr _ ih => exact Nat.succ_le_succ (nestingAll_le ih)
  | obj _ _ _ ih => exact Nat.succ_le_succ (nestingFields_le ih)

/-! ## Strings -/

/-- The characters of a string between its quotes. -/
def escaped (cs : List Char) : List Char :=
  cs.flatMap fun c => (escapeControl c).getD [c]

theorem ofChars_append (cs ds : List Char) : ofChars (cs ++ ds) = ofChars cs ++ ofChars ds :=
  List.map_append

theorem quoteWire_ofChars (cs : List Char) :
    quoteWire (ofChars cs) = ofChars ('"' :: escaped cs ++ ['"']) := by
  have hbody : (ofChars cs).flatMap escapeWire = ofChars (escaped cs) := by
    induction cs with
    | nil => rfl
    | cons c cs ih =>
      rw [ofChars, List.map_cons, List.flatMap_cons, escaped, List.flatMap_cons, ofChars_append]
      exact congrArg (escapeWire (.char c) ++ ·) ih
  rw [quoteWire, hbody, List.cons_append, ← List.singleton_append, ofChars_append, ofChars_append]
  rfl

namespace Reader

theorem hexDigitValue?_hexDigit : ∀ k < 16, hexDigitValue? (hexDigit k) = some k := by
  decide

/-- The four digits of a unit write its number. -/
theorem hexUnit?_hexDigits {n : Nat} (hn : n < 0x10000) : ∃ a b c d, hexDigits 4 n = [a, b, c, d] ∧
    hexUnit? a b c d = some n := by
  refine ⟨hexDigit (n / 16 / 16 / 16 % 16), hexDigit (n / 16 / 16 % 16), hexDigit (n / 16 % 16),
    hexDigit (n % 16), rfl, ?_⟩
  have hdigit : ∀ m, hexDigitValue? (hexDigit (m % 16)) = some (m % 16) := fun m =>
    hexDigitValue?_hexDigit _ (Nat.mod_lt _ (by decide))
  have hvalue : ofDigits 16 [n / 16 / 16 / 16 % 16, n / 16 / 16 % 16, n / 16 % 16, n % 16] = n := by
    simp only [ofDigits, List.foldl_cons, List.foldl_nil]
    omega
  simp [hexUnit?, hdigit, hvalue]

/-- A unit that is no half of a pair is a character, whatever stands behind it. -/
theorem stringTail_unit {u : Nat} (hu : u < 0xD800 ∨ 0xDFFF < u) {a b c d : Char}
    (h : hexUnit? a b c d = some u) (done : Text) (rest : List Char) :
    stringTail done ('\\' :: 'u' :: a :: b :: c :: d :: rest) =
      stringTail (.char (Char.ofNat u) :: done) rest := by
  have hhigh : isHighHalf u = false := by simp [isHighHalf]; omega
  have hlow : isLowHalf u = false := by simp [isLowHalf]; omega
  have hpair : ∀ next, pairChar? u next = none := by
    intro next
    cases next <;> simp [pairChar?, hhigh]
  have hpoint : unitPoint u = .char (Char.ofNat u) := by simp [unitPoint, hhigh, hlow]
  rw [stringTail.eq_3, h]
  dsimp only
  split
  · rw [hpair, hpoint]
  · rw [hpoint]

/-- A character is read from its escape, or from itself if it has none. -/
theorem stringTail_escape (c : Char) (done : Text) (rest : List Char) :
    stringTail done ((escapeControl c).getD [c] ++ rest) = stringTail (.char c :: done) rest := by
  have hletter : ∀ l x, escapedChar? l = some x → l ≠ 'u' →
      stringTail done (['\\', l] ++ rest) = stringTail (.char x :: done) rest := by
    intro l x hx hl
    rw [List.cons_append, List.singleton_append, stringTail.eq_4 _ _ _ fun _ _ _ _ _ h => by
      exact absurd h hl, hx]
  unfold escapeControl
  split
  · next h => subst h; exact hletter _ _ rfl (by decide)
  split
  · next h => subst h; exact hletter _ _ rfl (by decide)
  split
  · next h => subst h; exact hletter _ _ rfl (by decide)
  split
  · next h => subst h; exact hletter _ _ rfl (by decide)
  split
  · next h => subst h; exact hletter _ _ rfl (by decide)
  split
  · next h => subst h; exact hletter _ _ rfl (by decide)
  split
  · next h => subst h; exact hletter _ _ rfl (by decide)
  split
  · next hlow =>
    obtain ⟨d₁, d₂, d₃, d₄, hdigits, hunit⟩ := hexUnit?_hexDigits (n := c.toNat) (by omega)
    rw [hdigits, Option.getD_some]
    simpa [Char.ofNat_toNat] using stringTail_unit (by omega) hunit done rest
  · next hquote hslash _ _ _ _ _ hlow =>
    rw [Option.getD_none, List.singleton_append,
      stringTail.eq_5 _ _ _ hquote (fun _ _ _ _ _ h _ => hslash h) fun _ _ h _ => hslash h]
    rw [if_neg (by simp [hslash]; omega)]

/-- Escapes that are read as the characters they stand for make up a string. -/
theorem string_flatMap {escape : Char → List Char}
    (h : ∀ c done rest, stringTail done (escape c ++ rest) = stringTail (.char c :: done) rest)
    (cs rest : List Char) : string (cs.flatMap escape ++ '"' :: rest) = .ok (ofChars cs, rest) := by
  have htail : ∀ done, stringTail done (cs.flatMap escape ++ '"' :: rest) =
      .ok (done.reverse ++ ofChars cs, rest) := by
    induction cs with
    | nil =>
      intro done
      rw [List.flatMap_nil, List.nil_append, stringTail.eq_2, ofChars, List.map_nil,
        List.append_nil]
    | cons c cs ih =>
      intro done
      rw [List.flatMap_cons, List.append_assoc, h, ih, List.reverse_cons, List.append_assoc]
      rfl
  exact htail []

/-- **A string is read up to its closing quote.** -/
theorem string_escaped (cs rest : List Char) :
    string (escaped cs ++ '"' :: rest) = .ok (ofChars cs, rest) :=
  string_flatMap stringTail_escape cs rest

/-! ## Whole numbers -/

/-- What may follow a value: the end of the text, a comma, a closing bracket or brace, a gap. -/
def Follows (rest : List Char) : Prop :=
  ∀ c ∈ rest.head?, c = ',' ∨ c = ']' ∨ c = '\x7d' ∨ isGap c = true

theorem Follows.nil : Follows [] := by
  simp [Follows]

theorem Follows.cons {c : Char} (h : c = ',' ∨ c = ']' ∨ c = '\x7d' ∨ isGap c = true)
    (rest : List Char) : Follows (c :: rest) := by
  simpa [Follows] using h

/-- What follows a value belongs to no number. -/
theorem Follows.head {c : Char} {rest : List Char} (h : Follows (c :: rest)) :
    c.isDigit = false ∧ c ≠ '.' ∧ c ≠ 'e' ∧ c ≠ 'E' := by
  obtain rfl | rfl | rfl | hgap := h c rfl
  · decide
  · decide
  · decide
  · obtain ((rfl | rfl) | rfl) | rfl : ((c = ' ' ∨ c = '\t') ∨ c = '\n') ∨ c = '\r' := by
      simpa [isGap] using hgap
    all_goals decide

variable {rest : List Char}

theorem Follows.digits_append (hr : Follows rest) {ds : List Char}
    (h : ∀ c ∈ ds, c.isDigit = true) : digits (ds ++ rest) = (ds, rest) := by
  rw [digits, List.span_eq_takeWhile_dropWhile, List.takeWhile_append_of_pos h,
    List.dropWhile_append_of_pos h]
  cases rest with
  | nil => simp
  | cons c rest => simp [hr.head.1]

theorem Follows.fraction (hr : Follows rest) : Reader.fraction rest = (none, rest) := by
  cases rest with
  | nil => rfl
  | cons c rest => exact fraction.eq_2 _ fun _ h => hr.head.2.1 (List.cons.inj h).1

theorem Follows.exponent (hr : Follows rest) : Reader.exponent rest = (none, rest) := by
  cases rest with
  | nil => rfl
  | cons c rest => simp [Reader.exponent, hr.head.2.2]

/-- Only zero is written with a zero in front. -/
theorem whole?_toDigits (hr : Follows rest) (n : Nat) :
    whole? (Nat.toDigits 10 n ++ rest) = some (Nat.toDigits 10 n, rest) := by
  rcases Nat.eq_zero_or_pos n with rfl | hn
  · rfl
  · have hne := Numeral.toDigits_head?_ne hn
    have hdigits := hr.digits_append fun c => Numeral.isDigit_of_mem_toDigits (n := n) (c := c)
    cases hds : Nat.toDigits 10 n with
    | nil => exact absurd hds Nat.toDigits_ne_nil
    | cons d ds =>
      rw [hds] at hne hdigits
      have hd : d ≠ '0' := by simpa using hne
      rw [List.cons_append] at hdigits ⊢
      rw [whole?.eq_2 _ fun _ h => hd (List.cons.inj h).1, hdigits]

/-- **A number is read from its digits and its sign.** -/
theorem number_toDigits (hr : Follows rest) (negative : Bool) {n : Nat}
    (short : (Nat.toDigits 10 n).length ≤ Numeral.maxDigits) :
    number negative (Nat.toDigits 10 n ++ rest) =
      .ok (.int (if negative then -(n : Int) else n), rest) := by
  have hvalue : natOf (Nat.toDigits 10 n) = n := by
    rw [natOf, Numeral.ofDigits_eq_ofDigitChars, Nat.ofDigitChars_ten_toDigits]
  unfold number
  rw [whole?_toDigits hr]
  dsimp only
  rw [hr.fraction]
  dsimp only
  rw [hr.exponent]
  simp [Nat.not_lt.2 short, hvalue]

/-! ## Values -/

/-- How the text of a value begins: neither with a gap nor with the end of an array. -/
def Begins (cs : List Char) : Prop :=
  ∃ c more, cs = c :: more ∧ isGap c = false ∧ c ≠ ']'

theorem Begins.skipGap {cs : List Char} (h : Begins cs) (rest : List Char) :
    Reader.skipGap (cs ++ rest) = cs ++ rest := by
  obtain ⟨c, more, rfl, hgap, -⟩ := h
  exact List.dropWhile_cons_of_neg (by simp [hgap])

theorem Begins.append {cs : List Char} (h : Begins cs) (ds : List Char) : Begins (cs ++ ds) := by
  obtain ⟨c, more, rfl, hgap, hend⟩ := h
  exact ⟨c, more ++ ds, rfl, hgap, hend⟩

/-- The value is written as characters that, in front of whatever may follow, are read as it. -/
def ReadsBack (depth : Nat) (v : Json) : Prop :=
  ∃ cs, v.render = ofChars cs ∧ Begins cs ∧ ∀ fuel rest, cs.length < fuel → Follows rest →
    value fuel depth (cs ++ rest) = .ok (v, rest)

variable {depth : Nat}

theorem readsBack_str (cs : List Char) : ReadsBack depth (.str (ofChars cs)) := by
  refine ⟨'"' :: escaped cs ++ ['"'], ?_, ⟨'"', _, rfl, rfl, by decide⟩, ?_⟩
  · rw [render, quoteWire_ofChars]
  · intro fuel rest hfuel hr
    obtain ⟨fuel, rfl⟩ : ∃ k, fuel = k + 1 := ⟨fuel - 1, by omega⟩
    rw [List.cons_append, List.cons_append, List.append_assoc, List.singleton_append, value,
      string_escaped]

theorem readsBack_null : ReadsBack depth .null := by
  refine ⟨"null".toList, by rw [render]; rfl, ⟨'n', _, rfl, rfl, by decide⟩, ?_⟩
  intro fuel rest hfuel hr
  obtain ⟨fuel, rfl⟩ : ∃ k, fuel = k + 1 := ⟨fuel - 1, by omega⟩
  rfl

theorem readsBack_bool (b : Bool) : ReadsBack depth (.bool b) := by
  cases b with
  | false =>
    refine ⟨"false".toList, by rw [render]; rfl, ⟨'f', _, rfl, rfl, by decide⟩, ?_⟩
    intro fuel rest hfuel hr
    obtain ⟨fuel, rfl⟩ : ∃ k, fuel = k + 1 := ⟨fuel - 1, by omega⟩
    rfl
  | true =>
    refine ⟨"true".toList, by rw [render]; rfl, ⟨'t', _, rfl, rfl, by decide⟩, ?_⟩
    intro fuel rest hfuel hr
    obtain ⟨fuel, rfl⟩ : ∃ k, fuel = k + 1 := ⟨fuel - 1, by omega⟩
    rfl

theorem value_of_isDigit {c : Char} (hc : c.isDigit = true) (fuel depth : Nat) (cs : List Char) :
    value (fuel + 1) depth (c :: cs) = number false (c :: cs) := by
  have hne : ∀ {x more}, x.isDigit = false → c :: cs = x :: more → False := by
    intro x more hx h
    exact Numeral.ne_of_isDigit hc hx (List.cons.inj h).1
  rw [value.eq_7 _ _ _ (fun _ => hne rfl) (fun _ => hne rfl) fun _ => hne rfl]
  exact scalar.eq_7 _ _ (fun _ => hne rfl) (fun _ => hne rfl) (fun _ => hne rfl) (fun _ => hne rfl)
    (fun _ => hne rfl) fun _ => hne rfl

theorem value_minus {c : Char} (hc : c.isDigit = true) (fuel depth : Nat) (cs : List Char) :
    value (fuel + 1) depth ('-' :: c :: cs) = number true (c :: cs) := by
  have hword : word? "Infinity" (c :: cs) = none := by
    have hne : ('I' == c) = false := beq_false_of_ne (Numeral.ne_of_isDigit hc rfl).symm
    exact if_neg (by simp [List.isPrefixOf, hne])
  rw [value.eq_7 _ _ _ (by simp) (by simp) (by simp), scalar.eq_6, hword]

theorem readsBack_int {n : Int} (short : (Nat.toDigits 10 n.natAbs).length ≤ Numeral.maxDigits) :
    ReadsBack depth (.int n) := by
  have hrender : (Json.int n).render = ofString n.repr := by rw [render, scalarText]; rfl
  obtain ⟨d, ds, hds⟩ := List.exists_cons_of_ne_nil (Nat.toDigits_ne_nil (b := 10) (n := n.natAbs))
  have hd : d.isDigit = true :=
    Numeral.isDigit_of_mem_toDigits (n := n.natAbs) (by rw [hds]; exact List.mem_cons_self ..)
  by_cases hn : n < 0
  · refine ⟨'-' :: Nat.toDigits 10 n.natAbs, ?_, ⟨'-', _, rfl, rfl, by decide⟩, ?_⟩
    · rw [hrender, Int.repr_eq_if, if_neg (by omega), ofString, String.toList_append,
        Nat.toList_repr, show (-n).toNat = n.natAbs by omega]
      rfl
    · intro fuel rest hfuel hr
      obtain ⟨fuel, rfl⟩ : ∃ k, fuel = k + 1 := ⟨fuel - 1, by omega⟩
      have hnumber := number_toDigits hr true short
      rw [hds] at hnumber ⊢
      rw [List.cons_append] at hnumber ⊢
      rw [List.cons_append, value_minus hd, hnumber, if_pos rfl,
        show -(n.natAbs : Int) = n by omega]
  · refine ⟨Nat.toDigits 10 n.natAbs, ?_, ⟨d, ds, hds, ?_, ?_⟩, ?_⟩
    · rw [hrender, Int.repr_eq_if, if_pos (by omega), ofString, Nat.toList_repr,
        show n.toNat = n.natAbs by omega]
    · simp [isGap, Numeral.ne_of_isDigit hd]
    · exact Numeral.ne_of_isDigit hd rfl
    · intro fuel rest hfuel hr
      obtain ⟨fuel, rfl⟩ : ∃ k, fuel = k + 1 := ⟨fuel - 1, by omega⟩
      have hnumber := number_toDigits hr false short
      rw [hds] at hnumber ⊢
      rw [List.cons_append] at hnumber ⊢
      rw [value_of_isDigit hd, hnumber, if_neg (by simp), show (n.natAbs : Int) = n by omega]

/-! ## Arrays and objects -/

/-- A gap after a comma or a colon is skipped. -/
theorem skipGap_space {cs : List Char} (h : Begins cs) (rest : List Char) :
    Reader.skipGap (' ' :: (cs ++ rest)) = cs ++ rest := by
  rw [Reader.skipGap, List.dropWhile_cons_of_pos rfl]
  exact h.skipGap rest

theorem skipGap_cons {c : Char} (hc : isGap c = false) (rest : List Char) :
    Reader.skipGap (c :: rest) = c :: rest :=
  List.dropWhile_cons_of_neg (by simp [hc])

/-- The items of an array that has some: by induction on them, one value and one separator being
read at each. -/
theorem exists_items {vs : List Json} (hne : vs ≠ []) (h : ∀ v ∈ vs, ReadsBack depth v) :
    ∃ cs, renderItems vs = ofChars cs ∧ Begins cs ∧ ∀ fuel done rest, cs.length + 1 < fuel →
      items fuel depth done (cs ++ ']' :: rest) = .ok (.arr (done.reverse ++ vs), rest) := by
  induction vs with
  | nil => exact absurd rfl hne
  | cons v vs ih =>
    obtain ⟨cs, hcs, hbegins, hvalue⟩ := h v (List.mem_cons_self ..)
    cases vs with
    | nil =>
      refine ⟨cs, by rw [renderItems, hcs], hbegins, ?_⟩
      intro fuel done rest hfuel
      obtain ⟨fuel, rfl⟩ : ∃ k, fuel = k + 1 := ⟨fuel - 1, by omega⟩
      rw [items, hvalue fuel _ (by omega) (.cons (by simp) rest)]
      exact congrArg (fun vs => Except.ok (Json.arr vs, rest)) (List.reverse_cons ..)
    | cons w vs =>
      obtain ⟨ds, hds, hbegins', hitems⟩ :=
        ih (List.cons_ne_nil w vs) fun u hu => h u (List.mem_cons_of_mem _ hu)
      refine ⟨cs ++ ',' :: ' ' :: ds, ?_, hbegins.append _, ?_⟩
      · rw [renderItems, hcs, hds, List.append_assoc, ofChars_append]
        rfl
      · intro fuel done rest hfuel
        simp only [List.length_append, List.length_cons] at hfuel
        obtain ⟨fuel, rfl⟩ : ∃ k, fuel = k + 1 := ⟨fuel - 1, by omega⟩
        rw [List.append_assoc, List.cons_append, List.cons_append, items,
          hvalue fuel _ (by omega) (.cons (by simp) _)]
        simp only [skipGap_cons (c := ',') rfl]
        rw [skipGap_space hbegins', hitems fuel _ _ (by omega)]
        simp

theorem readsBack_arr {vs : List Json} (h : ∀ v ∈ vs, ReadsBack depth v) :
    ReadsBack (depth + 1) (.arr vs) := by
  cases vs with
  | nil =>
    refine ⟨['[', ']'], by rw [render]; rfl, ⟨'[', _, rfl, rfl, by decide⟩, ?_⟩
    intro fuel rest hfuel hr
    obtain ⟨fuel, rfl⟩ : ∃ k, fuel = k + 1 := ⟨fuel - 1, by omega⟩
    rfl
  | cons v vs =>
    obtain ⟨cs, hcs, hbegins, hitems⟩ := exists_items (List.cons_ne_nil v vs) h
    refine ⟨'[' :: cs ++ [']'], ?_, ⟨'[', _, rfl, rfl, by decide⟩, ?_⟩
    · rw [render, hcs, List.cons_append, ← List.singleton_append, ofChars_append, ofChars_append,
        List.append_assoc]
      rfl
    · intro fuel rest hfuel hr
      simp only [List.length_append, List.length_cons, List.length_nil] at hfuel
      obtain ⟨fuel, rfl⟩ : ∃ k, fuel = k + 1 := ⟨fuel - 1, by omega⟩
      have hskip := hbegins.skipGap (']' :: rest)
      have hread := hitems fuel [] rest (by omega)
      obtain ⟨c, more, rfl, -, hend⟩ := hbegins
      rw [List.cons_append, List.cons_append, List.append_assoc, List.singleton_append, value.eq_4,
        hskip, List.cons_append]
      rw [List.cons_append] at hread
      split
      · next heq => exact absurd (List.cons.inj heq).1 hend
      · exact hread

section Field

variable {k : Text} {name : List Char}
  (hname : ∀ rest, string (name ++ '"' :: rest) = .ok (k, rest))
  {v : Json} {cs : List Char} (hbegins : Begins cs) {fuel : Nat} {rest : List Char}
include hname hbegins

/-- A field in front of a comma. -/
theorem fields_comma (hvalue : value fuel depth (cs ++ ',' :: rest) = .ok (v, ',' :: rest))
    (done : List (Text × Json)) :
    fields (fuel + 1) depth done ('"' :: (name ++ '"' :: ':' :: ' ' :: (cs ++ ',' :: rest))) =
      fields fuel depth ((k, v) :: done) (skipGap rest) := by
  rw [fields, hname]
  simp only [skipGap_cons (c := ':') rfl, skipGap_cons (c := ',') rfl, skipGap_space hbegins,
    hvalue]

/-- A field in front of a brace, between which and the field there may be a gap. -/
theorem fields_brace {tail : List Char} (htail : skipGap tail = '\x7d' :: rest)
    (hvalue : value fuel depth (cs ++ tail) = .ok (v, tail)) (done : List (Text × Json)) :
    fields (fuel + 1) depth done ('"' :: (name ++ '"' :: ':' :: ' ' :: (cs ++ tail))) =
      .ok (.obj (Fields.ofPairs ((k, v) :: done).reverse), rest) := by
  rw [fields, hname]
  simp only [skipGap_cons (c := ':') rfl, skipGap_space hbegins, hvalue, htail]

end Field

/-- The fields of an object that has some, as the items of an array are read. -/
theorem exists_fields {fs : Object} (hne : fs ≠ []) (h : ∀ f ∈ fs, ReadsBack depth f.2)
    (scalar : ∀ f ∈ fs, ∃ cs, f.1 = ofChars cs) :
    ∃ cs, renderFields fs = ofChars ('"' :: cs) ∧ ∀ fuel done rest, cs.length + 2 < fuel →
      fields fuel depth done ('"' :: cs ++ '\x7d' :: rest) =
        .ok (.obj (Fields.ofPairs (done.reverse ++ fs)), rest) := by
  induction fs with
  | nil => exact absurd rfl hne
  | cons f fs ih =>
    obtain ⟨name, v⟩ := f
    obtain ⟨k, rfl⟩ := scalar (name, v) (List.mem_cons_self ..)
    obtain ⟨cs, hcs, hbegins, hvalue⟩ := h (ofChars k, v) (List.mem_cons_self ..)
    cases fs with
    | nil =>
      refine ⟨escaped k ++ '"' :: ':' :: ' ' :: cs, ?_, ?_⟩
      · rw [renderFields, hcs, quoteWire_ofChars]
        simp [ofChars, ofString]
      · intro fuel done rest hfuel
        simp only [List.length_append, List.length_cons] at hfuel
        obtain ⟨fuel, rfl⟩ : ∃ k, fuel = k + 1 := ⟨fuel - 1, by omega⟩
        have hread := hvalue fuel ('\x7d' :: rest) (by omega) (.cons (by simp) rest)
        simpa using fields_brace (string_escaped k) hbegins (skipGap_cons rfl rest) hread done
    | cons g fs =>
      obtain ⟨ds, hds, hfields⟩ := ih (List.cons_ne_nil g fs)
        (fun u hu => h u (List.mem_cons_of_mem _ hu))
        fun u hu => scalar u (List.mem_cons_of_mem _ hu)
      refine ⟨escaped k ++ '"' :: ':' :: ' ' :: (cs ++ ',' :: ' ' :: '"' :: ds), ?_, ?_⟩
      · rw [renderFields, hcs, hds, quoteWire_ofChars]
        simp [ofChars, ofString]
      · intro fuel done rest hfuel
        simp only [List.length_append, List.length_cons] at hfuel
        obtain ⟨fuel, rfl⟩ : ∃ k, fuel = k + 1 := ⟨fuel - 1, by omega⟩
        have hread := hvalue fuel (',' :: ' ' :: ('"' :: ds ++ '\x7d' :: rest)) (by omega)
          (.cons (by simp) _)
        have hfirst := fields_comma (string_escaped k) hbegins hread done
        have hquote : Begins ('"' :: ds) := ⟨'"', ds, rfl, rfl, by decide⟩
        rw [skipGap_space hquote, hfields fuel ((ofChars k, v) :: done) rest (by omega)] at hfirst
        simpa using hfirst

theorem readsBack_obj {fs : Object} (h : ∀ f ∈ fs, ReadsBack depth f.2)
    (scalar : ∀ f ∈ fs, ∃ cs, f.1 = ofChars cs) (distinct : (Fields.names fs).Nodup) :
    ReadsBack (depth + 1) (.obj fs) := by
  cases fs with
  | nil =>
    refine ⟨['\x7b', '\x7d'], by rw [render]; rfl, ⟨'\x7b', _, rfl, rfl, by decide⟩, ?_⟩
    intro fuel rest hfuel hr
    obtain ⟨fuel, rfl⟩ : ∃ k, fuel = k + 1 := ⟨fuel - 1, by omega⟩
    rfl
  | cons f fs =>
    obtain ⟨cs, hcs, hfields⟩ := exists_fields (List.cons_ne_nil f fs) h scalar
    refine ⟨'\x7b' :: '"' :: cs ++ ['\x7d'], ?_, ⟨'\x7b', _, rfl, rfl, by decide⟩, ?_⟩
    · rw [render, hcs]
      simp [ofChars, ofString]
    · intro fuel rest hfuel hr
      simp only [List.length_append, List.length_cons, List.length_nil] at hfuel
      obtain ⟨fuel, rfl⟩ : ∃ k, fuel = k + 1 := ⟨fuel - 1, by omega⟩
      have hread := hfields fuel [] rest (by omega)
      rw [List.reverse_nil, List.nil_append, Fields.ofPairs_eq_self distinct] at hread
      have htext : ('\x7b' :: '"' :: cs ++ ['\x7d']) ++ rest =
          '\x7b' :: '"' :: (cs ++ '\x7d' :: rest) := by simp
      rw [htext, value.eq_6, skipGap_cons rfl]
      exact hread

end Reader

/-- **A plain value in front of whatever may follow it is read as itself.** By induction on its
shape, one statement for each. -/
theorem Plain.readsBack {depth : Nat} {v : Json} (h : Plain depth v) :
    Reader.ReadsBack depth v := by
  induction h with
  | null => exact Reader.readsBack_null
  | bool b => exact Reader.readsBack_bool b
  | int short => exact Reader.readsBack_int short
  | str cs => exact Reader.readsBack_str cs
  | arr _ ih => exact Reader.readsBack_arr ih
  | obj _ scalar distinct ih => exact Reader.readsBack_obj ih scalar distinct

/-- **A plain value has bytes, and its text is read as itself.** -/
theorem Plain.readChars_render {depth : Nat} {v : Json} (h : Plain depth v) {limit : Nat}
    (hdepth : depth ≤ limit) :
    ∃ cs, v.render = ofChars cs ∧ readChars limit cs = .ok v := by
  obtain ⟨cs, hcs, hbegins, hvalue⟩ := (h.mono hdepth).readsBack
  refine ⟨cs, hcs, ?_⟩
  have hskip := hbegins.skipGap []
  have hread := hvalue (2 * cs.length + 2) [] (by omega) .nil
  rw [List.append_nil] at hskip hread
  rw [readChars, hskip, hread]
  rfl

/-! ## Values that have bytes -/

/-- The value is written in characters alone: no surrogate stands by itself in it. -/
def Scalar (v : Json) : Prop :=
  ∃ cs, v.render = ofChars cs

theorem isSome_toChars?_iff (v : Json) : v.render.toChars?.isSome = true ↔ v.Scalar := by
  constructor
  · intro h
    obtain ⟨cs, hcs⟩ := Option.isSome_iff_exists.1 h
    exact ⟨cs, eq_ofChars_of_toChars? hcs⟩
  · rintro ⟨cs, hcs⟩
    rw [hcs, toChars?_ofChars]
    rfl

instance (v : Json) : Decidable v.Scalar :=
  decidable_of_iff _ v.isSome_toChars?_iff

theorem Plain.scalar {depth : Nat} {v : Json} (h : Plain depth v) : v.Scalar := by
  obtain ⟨cs, hcs, -⟩ := h.readsBack
  exact ⟨cs, hcs⟩

/-- An object has bytes if its names and its values have. -/
theorem Scalar.obj {fs : Object} (h : ∀ f ∈ fs, (∃ cs, f.1 = ofChars cs) ∧ f.2.Scalar) :
    Scalar (.obj fs) := by
  have hfields : ∃ cs, renderFields fs = ofChars cs := by
    induction fs with
    | nil => exact ⟨[], by rw [renderFields]; rfl⟩
    | cons f fs ih =>
      obtain ⟨name, v⟩ := f
      obtain ⟨⟨k, rfl⟩, cs, hcs⟩ := h (name, v) (List.mem_cons_self ..)
      obtain ⟨ds, hds⟩ := ih fun f hf => h f (List.mem_cons_of_mem _ hf)
      cases fs with
      | nil =>
        refine ⟨'"' :: escaped k ++ '"' :: ':' :: ' ' :: cs, ?_⟩
        rw [renderFields, hcs, quoteWire_ofChars]
        simp [ofChars, ofString]
      | cons g fs =>
        refine ⟨'"' :: escaped k ++ '"' :: ':' :: ' ' :: (cs ++ ',' :: ' ' :: ds), ?_⟩
        rw [renderFields, hcs, hds, quoteWire_ofChars]
        simp [ofChars, ofString]
  obtain ⟨cs, hcs⟩ := hfields
  refine ⟨'\x7b' :: cs ++ ['\x7d'], ?_⟩
  rw [render, hcs]
  simp [ofChars, ofString]

/-! ## Arrays in one another -/

/-- So many arrays in one another, with `null` in the innermost. -/
def nested : Nat → Json
  | 0 => .null
  | n + 1 => .arr [nested n]

theorem plain_nested (n : Nat) : (nested n).Plain n := by
  induction n with
  | zero => exact .null
  | succ n ih => exact .arr (by simpa using ih)

theorem nesting_nested (n : Nat) : (nested n).nesting = n := by
  induction n with
  | zero => rfl
  | succ n ih => simp [nested, nesting, nestingAll, ih]

theorem render_nested (n : Nat) : (nested n).render =
    ofChars (List.replicate n '[' ++ "null".toList ++ List.replicate n ']') := by
  induction n with
  | zero => rw [nested, render]; rfl
  | succ n ih =>
    rw [nested, render, renderItems, ih, List.replicate_succ, List.replicate_succ']
    simp [ofChars, ofString]

end SymbolAtlas.Json
