import SymbolAtlas.Proofs.Rpc.Reading
import SymbolAtlas.Proofs.Text.Trim
import SymbolAtlas.Proofs.Text.Utf8

/-!
# The grammar of a stream

What a reading gives is said here without the reader, by the form of the bytes. In front of a
message may stand lines that state no length; then come the headers, the first of which states a
length, a blank line, and as many bytes as the last length says.

* `Frame.Block` — the headers of a message, with the last length that they state;
* `Frame.Framed` — bytes that begin with a message;
* `Frame.Faulty` — bytes that begin with something that cannot be read;
* `Frame.CutShort` — bytes that end before either is complete;
* `Frame.readMessage_grammar` — reading gives the message, the fault or the end exactly if the
  bytes are of the form.
-/

namespace SymbolAtlas.Frame

open Text

/-! ## Kinds of lines -/

/-- The byte that may stand before a line feed. -/
def carriageReturn : UInt8 := 13

/-- A line without a text. -/
def Blank (line : List UInt8) : Prop :=
  ∀ b ∈ line, b = carriageReturn

/-- A line that is the header, with its value. -/
def IsHeader (h : Header) (line : List UInt8) (value : String) : Prop :=
  header? (lineText line) = some (h, value)

/-- A line that states a length. -/
def States (line : List UInt8) (n : Nat) : Prop :=
  ∃ value, IsHeader .contentLength line value ∧ Numeral.readInt? value = some (n : Int) ∧ 1 ≤ n

/-- A line that is no header. -/
def IsOther (line : List UInt8) : Prop :=
  header? (lineText line) = none

instance (line : List UInt8) : Decidable (Blank line) :=
  decidable_of_iff (line.all (· == carriageReturn) = true) (by simp [Blank])

instance (line : List UInt8) : Decidable (IsOther line) :=
  inferInstanceAs (Decidable (header? (lineText line) = none))

/-- The console output that a line in front of a message is. -/
def shown? (line : List UInt8) : Option String :=
  if ¬ Blank line ∧ IsOther line then some (lineText line) else none

variable {line : List UInt8} {n : Nat}

theorem length?_eq_some_iff {value : String} :
    length? value = some n ↔ Numeral.readInt? value = some (n : Int) ∧ 1 ≤ n := by
  unfold length?
  cases Numeral.readInt? value with
  | none => simp
  | some k =>
    dsimp only
    split <;> simp <;> omega

/-- A line has no text exactly if it is made of carriage returns: whatever else stands in it is
shown, if only as U+FFFD. -/
theorem isEmpty_lineText (h : lineFeed ∉ line) : (lineText line).isEmpty = true ↔ Blank line := by
  rw [String.isEmpty_iff, lineText, String.ofList_eq_empty_iff, dropLastWhile_eq_nil_iff]
  constructor
  · intro hall b hb
    have hscan : Utf8.scan line = line.map fun b => some (Char.ofNat b.toNat) := by
      refine Utf8.scan_eq_of_ascii fun e he => ?_
      have hend := hall _ (List.mem_map_of_mem he)
      cases e with
      | none => exact absurd hend (by decide)
      | some c =>
        refine ⟨c, rfl, ?_⟩
        rcases (by simpa [isLineEnd] using hend : c = '\r' ∨ c = '\n') with rfl | rfl <;> decide
    have hmem : some (Char.ofNat b.toNat) ∈ Utf8.scan line := hscan ▸ List.mem_map_of_mem hb
    have hend := hall _ (List.mem_map_of_mem hmem)
    have hbyte : ∀ n < 256, isLineEnd (Char.ofNat n) = true → n = 13 ∨ n = 10 := by
      decide +kernel
    rcases hbyte _ b.toNat_lt hend with hn | hn
    · exact UInt8.toNat_inj.1 hn
    · have heq : b = lineFeed := UInt8.toNat_inj.1 hn
      exact absurd (heq ▸ hb) h
  · intro hblank c hc
    have hascii : ∀ b ∈ line, b.toNat < 0x80 := by
      intro b hb
      rw [hblank b hb]
      decide
    rw [Utf8.decodeLossy, Utf8.scan_ascii hascii, List.map_map] at hc
    obtain ⟨b, hb, rfl⟩ := List.mem_map.1 hc
    rw [hblank b hb]
    rfl

theorem Blank.isOther (hblank : Blank line) (h : lineFeed ∉ line) : IsOther line := by
  have hempty := String.isEmpty_iff.1 ((isEmpty_lineText h).2 hblank)
  rw [IsOther, hempty]
  rfl

/-! ## What a line comes to -/

theorem lineEffect_blank (h : lineFeed ∉ line) (hblank : Blank line) (length : Option Nat) :
    lineEffect length (lineText line) = length.elim (.headers none) .body := by
  unfold lineEffect
  rw [if_pos ((isEmpty_lineText h).2 hblank)]
  cases length <;> rfl

theorem IsHeader.not_isEmpty {h : Header} {value : String} (hh : IsHeader h line value)
    (hline : lineFeed ∉ line) : ¬ (lineText line).isEmpty = true := by
  intro hempty
  have hother := ((isEmpty_lineText hline).1 hempty).isOther hline
  rw [IsOther, hh] at hother
  cases hother

theorem lineEffect_states (hline : lineFeed ∉ line) (h : States line n) (length : Option Nat) :
    lineEffect length (lineText line) = .headers (some n) := by
  obtain ⟨value, hh, hn⟩ := h
  unfold lineEffect
  rw [if_neg (hh.not_isEmpty hline), hh]
  dsimp only
  rw [length?_eq_some_iff.2 hn]

theorem lineEffect_illStated {value : String} (hline : lineFeed ∉ line)
    (hh : IsHeader .contentLength line value) (h : ∀ n, ¬ States line n) (length : Option Nat) :
    lineEffect length (lineText line) = .bad (.badLength value) := by
  have hnone : length? value = none := by
    rw [Option.eq_none_iff_forall_ne_some]
    exact fun n hn => h n ⟨value, hh, length?_eq_some_iff.1 hn⟩
  unfold lineEffect
  rw [if_neg (hh.not_isEmpty hline), hh]
  dsimp only
  rw [hnone]

theorem lineEffect_type {value : String} (hline : lineFeed ∉ line)
    (hh : IsHeader .contentType line value) (length : Option Nat) :
    lineEffect length (lineText line) = .headers length := by
  unfold lineEffect
  rw [if_neg (hh.not_isEmpty hline), hh]

theorem lineEffect_other (hline : lineFeed ∉ line) (hblank : ¬ Blank line) (h : IsOther line)
    (length : Option Nat) :
    lineEffect length (lineText line) =
      length.elim (.console (lineText line)) fun _ => .bad (.unexpectedHeader (lineText line)) := by
  unfold lineEffect
  rw [if_neg (mt (isEmpty_lineText hline).1 hblank), h]
  cases length <;> rfl

/-! ## Lines in a row -/

/-- The bytes begin with the lines, and the rest follows. -/
inductive Lines : List (List UInt8) → List UInt8 → List UInt8 → Prop
  | nil (bytes : List UInt8) : Lines [] bytes bytes
  | cons {line bytes more rest : List UInt8} {lines : List (List UInt8)}
      (first : FirstLine bytes line more) (others : Lines lines more rest) :
      Lines (line :: lines) bytes rest

/-- The lines, each with its line feed. -/
def spell (lines : List (List UInt8)) : List UInt8 :=
  lines.flatMap (· ++ [lineFeed])

variable {bytes mid rest : List UInt8} {lines more : List (List UInt8)} {depth : Nat}

theorem Lines.append (h : Lines lines bytes mid) (h' : Lines more mid rest) :
    Lines (lines ++ more) bytes rest := by
  induction h with
  | nil => exact h'
  | cons first _ ih => exact .cons first (ih h')

theorem Lines.snoc (h : Lines lines bytes mid) (h' : FirstLine mid line rest) :
    Lines (lines ++ [line]) bytes rest :=
  h.append (.cons h' (.nil rest))

theorem Lines.of_append (h : Lines (lines ++ more) bytes rest) :
    ∃ mid, Lines lines bytes mid ∧ Lines more mid rest := by
  induction lines generalizing bytes with
  | nil => exact ⟨bytes, .nil bytes, h⟩
  | cons line lines ih =>
    cases h with
    | cons first others =>
      obtain ⟨mid, hlines, hmore⟩ := ih others
      exact ⟨mid, .cons first hlines, hmore⟩

theorem Lines.of_snoc (h : Lines (lines ++ [line]) bytes rest) :
    ∃ mid, Lines lines bytes mid ∧ FirstLine mid line rest := by
  obtain ⟨mid, hlines, hlast⟩ := h.of_append
  cases hlast with
  | cons first others =>
    cases others
    exact ⟨mid, hlines, first⟩

theorem Lines.spell (h : ∀ line ∈ lines, lineFeed ∉ line) (rest : List UInt8) :
    Lines lines (Frame.spell lines ++ rest) rest := by
  induction lines with
  | nil => exact .nil rest
  | cons line lines ih =>
    rw [Frame.spell, List.flatMap_cons, List.append_assoc, List.append_assoc]
    exact .cons (.fed (h line (List.mem_cons_self ..)) _)
      (ih fun l hl => h l (List.mem_cons_of_mem _ hl))

/-- In front of other bytes each of the lines has its line feed. -/
theorem Lines.eq_of_ne_nil (h : Lines lines bytes rest) (hne : rest ≠ []) :
    bytes = Frame.spell lines ++ rest := by
  induction h with
  | nil => rfl
  | cons first others ih =>
    have hmore := ih hne
    rw [first.eq_of_ne_nil (by rw [hmore]; exact List.append_ne_nil_of_right_ne_nil _ hne), hmore]
    simp [Frame.spell]

/-! ## The forms of a stream -/

/-- The lines that may stand in front of a message: those that are no length header. -/
def Prelude (lines : List (List UInt8)) : Prop :=
  ∀ line ∈ lines, lineFeed ∉ line ∧ ∀ value, ¬ IsHeader .contentLength line value

/-- The console output in the lines in front of a message. -/
def shown (lines : List (List UInt8)) : List String :=
  lines.filterMap shown?

/-- The headers of a message so far, with the last length that they state. The first one states a
length, each other one a length or a type. -/
inductive Block : List (List UInt8) → Option Nat → Prop
  | empty : Block [] none
  | length {lines : List (List UInt8)} {line : List UInt8} {k : Option Nat} {n : Nat}
      (block : Block lines k) (hline : lineFeed ∉ line) (states : States line n) :
      Block (lines ++ [line]) (some n)
  | type {lines : List (List UInt8)} {line : List UInt8} {n : Nat} {value : String}
      (block : Block lines (some n)) (hline : lineFeed ∉ line)
      (type : IsHeader .contentType line value) : Block (lines ++ [line]) (some n)

/-- The bytes begin with a message: lines in front of it, its headers, a blank line, and a body of
as many bytes as the headers say, which is the text of an object. -/
inductive Framed (depth : Nat) : List UInt8 → List String → Json.Object → List UInt8 → Prop
  | intro {front headers : List (List UInt8)} {blank body rest : List UInt8} {n : Nat}
      {cs : List Char} {m : Json.Object} (prelude : Prelude front) (block : Block headers (some n))
      (hblank : Blank blank) (length : body.length = n) (text : Utf8.decode body = some cs)
      (value : Json.readChars depth cs = .ok (.obj m)) :
      Framed depth (spell front ++ spell headers ++ (blank ++ [lineFeed]) ++ body ++ rest)
        (shown front) m rest

/-- The bytes begin with something that cannot be read. -/
inductive Faulty (depth : Nat) : List UInt8 → List String → BodyFault → List UInt8 → Prop
  /-- A header that should state a length states none. -/
  | length {front headers : List (List UInt8)} {bytes line rest : List UInt8} {k : Option Nat}
      {value : String} (prelude : Prelude front) (block : Block headers k)
      (lines : Lines (front ++ headers ++ [line]) bytes rest)
      (header : IsHeader .contentLength line value) (bad : ∀ n, ¬ States line n) :
      Faulty depth bytes (shown front) (.frame (.badLength value)) rest
  /-- A line among the headers is none. -/
  | header {front headers : List (List UInt8)} {bytes line rest : List UInt8} {n : Nat}
      (prelude : Prelude front) (block : Block headers (some n))
      (lines : Lines (front ++ headers ++ [line]) bytes rest) (hblank : ¬ Blank line)
      (other : IsOther line) :
      Faulty depth bytes (shown front) (.frame (.unexpectedHeader (lineText line))) rest
  /-- The body is no text of an object. -/
  | body {front headers : List (List UInt8)} {blank body rest : List UInt8} {n : Nat}
      {e : BodyFault} (prelude : Prelude front) (block : Block headers (some n))
      (hblank : Blank blank) (length : body.length = n) (bad : readBody depth body = .error e) :
      Faulty depth (spell front ++ spell headers ++ (blank ++ [lineFeed]) ++ body ++ rest)
        (shown front) e rest

/-- The bytes end too early. -/
inductive CutShort : List UInt8 → List String → Prop
  /-- They end in front of a message or among its headers. -/
  | headers {front headers : List (List UInt8)} {bytes : List UInt8} {k : Option Nat}
      (prelude : Prelude front) (block : Block headers k)
      (lines : Lines (front ++ headers) bytes []) : CutShort bytes (shown front)
  /-- They end inside the body. -/
  | body {front headers : List (List UInt8)} {bytes blank body : List UInt8} {n : Nat}
      (prelude : Prelude front) (block : Block headers (some n)) (hblank : Blank blank)
      (lines : Lines (front ++ headers ++ [blank]) bytes body) (length : body.length < n) :
      CutShort bytes (shown front)

/-! ## Reading what has the form -/

theorem Blank.not_mem (h : Blank line) : lineFeed ∉ line := by
  intro hmem
  exact absurd (h _ hmem) (by decide)

theorem Block.not_mem {headers : List (List UInt8)} {k : Option Nat} (h : Block headers k) :
    ∀ line ∈ headers, lineFeed ∉ line := by
  induction h with
  | empty => simp
  | length _ hline _ ih =>
    intro l hl
    rcases List.mem_append.1 hl with hl | hl
    · exact ih l hl
    · exact List.mem_singleton.1 hl ▸ hline
  | type _ hline _ ih =>
    intro l hl
    rcases List.mem_append.1 hl with hl | hl
    · exact ih l hl
    · exact List.mem_singleton.1 hl ▸ hline

theorem Block.eq_nil {headers : List (List UInt8)} (h : Block headers none) : headers = [] := by
  cases h
  rfl

theorem Block.pos {headers : List (List UInt8)} {k : Option Nat} (h : Block headers k) :
    ∀ n ∈ k, 1 ≤ n := by
  induction h with
  | empty => simp
  | length _ _ states _ =>
    obtain ⟨value, -, -, hn⟩ := states
    simpa using hn
  | type _ _ _ ih => exact ih

/-- A line in front of a message is shown, unless it is blank or a type. -/
theorem readAt_prelude_line {reader : Reader} (h : FirstLine bytes line rest)
    (hno : ∀ value, ¬ IsHeader .contentLength line value) :
    readAt reader (.headers none) bytes =
      (readAt reader (.headers none) rest).prepend (shown? line).toList := by
  rw [h.readAt, afterLine]
  by_cases hblank : Blank line
  · rw [lineEffect_blank h.not_mem hblank, shown?, if_neg fun hs => hs.1 hblank]
    rfl
  cases hheader : header? (lineText line) with
  | none =>
    rw [lineEffect_other h.not_mem hblank hheader, shown?, if_pos ⟨hblank, hheader⟩]
    rfl
  | some hv =>
    obtain ⟨header, value⟩ := hv
    cases header with
    | contentLength => exact absurd hheader (hno value)
    | contentType =>
      have hnot : ¬ IsOther line := by simp [IsOther, hheader]
      rw [lineEffect_type h.not_mem hheader, shown?, if_neg fun hs => hnot hs.2]
      rfl

theorem shown_cons (line : List UInt8) (lines : List (List UInt8)) :
    shown (line :: lines) = (shown? line).toList ++ shown lines := by
  rw [shown, List.filterMap_cons]
  cases shown? line <;> rfl

theorem Prelude.nil : Prelude [] := by
  simp [Prelude]

theorem Prelude.snoc (h : Prelude lines) (hline : lineFeed ∉ line)
    (hno : ∀ value, ¬ IsHeader .contentLength line value) : Prelude (lines ++ [line]) := by
  intro l hl
  rcases List.mem_append.1 hl with hl | hl
  · exact h l hl
  · exact List.mem_singleton.1 hl ▸ ⟨hline, hno⟩

theorem Lines.readAt_prelude {reader : Reader} (h : Lines lines bytes rest)
    (hp : Prelude lines) :
    readAt reader (.headers none) bytes =
      (readAt reader (.headers none) rest).prepend (shown lines) := by
  induction h with
  | nil => rfl
  | cons first _ ih =>
    have hothers : Prelude _ := fun l hl => hp l (List.mem_cons_of_mem _ hl)
    rw [readAt_prelude_line first (hp _ (List.mem_cons_self ..)).2, ih hothers,
      Reading.prepend_prepend, shown_cons]

/-- The headers so far bring the reader to the length that they state: by induction on the lines,
the last of which is read in the stage that those before it lead to. -/
theorem Block.readAt {reader : Reader} {headers : List (List UInt8)} {k : Option Nat}
    (h : Block headers k) (hl : Lines headers bytes rest) :
    Frame.readAt reader (.headers none) bytes = Frame.readAt reader (.headers k) rest := by
  induction h generalizing rest with
  | empty =>
    cases hl
    rfl
  | length _ hline states ih =>
    obtain ⟨mid, hlines, hlast⟩ := hl.of_snoc
    rw [ih hlines, hlast.readAt, afterLine, lineEffect_states hline states]
  | type _ hline type ih =>
    obtain ⟨mid, hlines, hlast⟩ := hl.of_snoc
    rw [ih hlines, hlast.readAt, afterLine, lineEffect_type hline type]

/-- What stands in front of a message and its headers so far are read one after the other. -/
theorem Lines.readAt_front {reader : Reader} {front headers : List (List UInt8)} {k : Option Nat}
    (h : Lines (front ++ headers) bytes rest) (prelude : Prelude front) (block : Block headers k) :
    readAt reader (.headers none) bytes =
      (readAt reader (.headers k) rest).prepend (shown front) := by
  obtain ⟨mid, hfront, hheaders⟩ := h.of_append
  rw [hfront.readAt_prelude prelude, block.readAt hheaders]

theorem Lines.readAt_blank {reader : Reader} {front headers : List (List UInt8)}
    {blank : List UInt8} (h : Lines (front ++ headers ++ [blank]) bytes rest)
    (prelude : Prelude front) (block : Block headers (some n)) (hblank : Blank blank) :
    readAt reader (.headers none) bytes = (readAt reader (.body n) rest).prepend (shown front) := by
  obtain ⟨mid, hfront, hlast⟩ := h.of_snoc
  rw [hfront.readAt_front prelude block, hlast.readAt, afterLine,
    lineEffect_blank hblank.not_mem hblank]
  rfl

theorem readBody_eq_ok_iff {body : List UInt8} {m : Json.Object} :
    readBody depth body = .ok m ↔
      ∃ cs, Utf8.decode body = some cs ∧ Json.readChars depth cs = .ok (.obj m) := by
  unfold readBody
  constructor
  · intro h
    split at h
    · cases h
    · next cs hcs =>
      split at h
      · next fields hfields => exact ⟨cs, hcs, Except.ok.inj h ▸ hfields⟩
      all_goals cases h
  · rintro ⟨cs, hcs, hm⟩
    rw [hcs]
    dsimp only
    rw [hm]

/-- A frame is read up to its body. -/
theorem readMessage_spell {front headers : List (List UInt8)} {blank body : List UInt8}
    (prelude : Prelude front) (block : Block headers (some n)) (hblank : Blank blank)
    (length : body.length = n) (rest : List UInt8) :
    readMessage ⟨.ideal, depth⟩
        (spell front ++ spell headers ++ (blank ++ [lineFeed]) ++ body ++ rest) =
      (afterBody ⟨.ideal, depth⟩ n (body ++ rest)).prepend (shown front) := by
  have hmem : ∀ l ∈ front ++ headers ++ [blank], lineFeed ∉ l := by
    intro l hl
    rcases List.mem_append.1 hl with hl | hl
    · rcases List.mem_append.1 hl with hl | hl
      · exact (prelude l hl).1
      · exact block.not_mem l hl
    · exact List.mem_singleton.1 hl ▸ hblank.not_mem
  have hlines := Lines.spell hmem (body ++ rest)
  have hspell : spell front ++ spell headers ++ (blank ++ [lineFeed]) ++ body ++ rest =
      spell (front ++ headers ++ [blank]) ++ (body ++ rest) := by
    simp [spell]
  have hshort : ¬ (body ++ rest).length < n := by
    rw [List.length_append]
    omega
  rw [hspell, readMessage_eq, hlines.readAt_blank prelude block hblank, readAt_body rfl,
    if_neg hshort]

theorem Framed.readMessage {out : List String} {m : Json.Object}
    (h : Framed depth bytes out m rest) :
    Frame.readMessage ⟨.ideal, depth⟩ bytes = ⟨out, .message m, rest⟩ := by
  cases h with
  | intro prelude block hblank length text value =>
    rw [readMessage_spell prelude block hblank length,
      afterBody_ok length (readBody_eq_ok_iff.2 ⟨_, text, value⟩), Reading.prepend, List.append_nil]

theorem Faulty.readMessage {out : List String} {e : BodyFault} (h : Faulty depth bytes out e rest) :
    Frame.readMessage ⟨.ideal, depth⟩ bytes = ⟨out, .bad e, rest⟩ := by
  cases h with
  | length prelude block lines header bad =>
    obtain ⟨mid, hfront, hlast⟩ := lines.of_snoc
    rw [readMessage_eq, hfront.readAt_front prelude block, hlast.readAt, afterLine,
      lineEffect_illStated hlast.not_mem header bad, Reading.prepend, List.append_nil]
  | header prelude block lines hblank other =>
    obtain ⟨mid, hfront, hlast⟩ := lines.of_snoc
    rw [readMessage_eq, hfront.readAt_front prelude block, hlast.readAt, afterLine,
      lineEffect_other hlast.not_mem hblank other, Option.elim_some, Reading.prepend,
      List.append_nil]
  | body prelude block hblank length bad =>
    rw [readMessage_spell prelude block hblank length, afterBody_error length bad, Reading.prepend,
      List.append_nil]

theorem CutShort.readMessage {out : List String} (h : CutShort bytes out) :
    Frame.readMessage ⟨.ideal, depth⟩ bytes = ⟨out, .ended, []⟩ := by
  cases h with
  | headers prelude block lines =>
    rw [readMessage_eq, lines.readAt_front prelude block, readAt_nil, Reading.prepend,
      List.append_nil]
  | body prelude block hblank lines length =>
    rw [readMessage_eq, lines.readAt_blank prelude block hblank, readAt_body rfl, if_pos length,
      Reading.prepend, List.append_nil]

/-! ## Every stream has a form -/

/-- What stands behind the headers of a message and its blank line. -/
theorem form_of_blank {front headers : List (List UInt8)} {blank left : List UInt8}
    (prelude : Prelude front) (block : Block headers (some n)) (hblank : Blank blank)
    (lines : Lines (front ++ headers ++ [blank]) bytes left) :
    (∃ out m rest, Framed depth bytes out m rest) ∨ (∃ out, CutShort bytes out) ∨
      ∃ out e rest, Faulty depth bytes out e rest := by
  by_cases hshort : left.length < n
  · exact .inr (.inl ⟨_, .body prelude block hblank lines hshort⟩)
  have hpos : 1 ≤ n := block.pos n rfl
  have hne : left ≠ [] := by
    rintro rfl
    exact hshort hpos
  have hlength : (left.take n).length = n := by
    rw [List.length_take]
    omega
  have hbytes : bytes = spell front ++ spell headers ++ (blank ++ [lineFeed]) ++ left.take n ++
      left.drop n := by
    rw [lines.eq_of_ne_nil hne, List.append_assoc _ (left.take n), List.take_append_drop]
    simp [spell]
  cases hbody : readBody depth (left.take n) with
  | ok m =>
    obtain ⟨cs, text, value⟩ := readBody_eq_ok_iff.1 hbody
    rw [hbytes]
    exact .inl ⟨_, m, left.drop n, .intro prelude block hblank hlength text value⟩
  | error e =>
    rw [hbytes]
    exact .inr (.inr ⟨_, e, left.drop n, .body prelude block hblank hlength hbody⟩)

/-- Any bytes behind lines in front of a message and its headers so far: by induction on their
number, one line being added to the one or the other. -/
theorem form_of_lines {front headers : List (List UInt8)} {k : Option Nat} {left : List UInt8}
    (prelude : Prelude front) (block : Block headers k)
    (lines : Lines (front ++ headers) bytes left) :
    (∃ out m rest, Framed depth bytes out m rest) ∨ (∃ out, CutShort bytes out) ∨
      ∃ out e rest, Faulty depth bytes out e rest := by
  induction hlen : left.length using Nat.strongRecOn generalizing front headers k left with
  | ind len ih =>
    by_cases hne : left = []
    · subst hne
      exact .inr (.inl ⟨_, .headers prelude block lines⟩)
    obtain ⟨line, rest, hline⟩ := exists_firstLine hne
    have hlt : rest.length < len := hlen ▸ hline.length_lt
    have hlines := lines.snoc hline
    -- The line is one more in front of a message, unless the headers have begun.
    have hfront : k = none → (∀ value, ¬ IsHeader .contentLength line value) →
        (∃ out m rest, Framed depth bytes out m rest) ∨ (∃ out, CutShort bytes out) ∨
          ∃ out e rest, Faulty depth bytes out e rest := by
      rintro rfl hno
      obtain rfl := block.eq_nil
      rw [List.append_nil, ← List.append_nil (front ++ [line])] at hlines
      exact ih _ hlt (prelude.snoc hline.not_mem hno) .empty hlines rfl
    -- The line is one more of the headers.
    have hheader : ∀ {j}, Block (headers ++ [line]) j →
        (∃ out m rest, Framed depth bytes out m rest) ∨ (∃ out, CutShort bytes out) ∨
          ∃ out e rest, Faulty depth bytes out e rest := fun hblock =>
      ih _ hlt prelude hblock (List.append_assoc .. ▸ hlines) rfl
    cases hhead : header? (lineText line) with
    | none =>
      have hno : ∀ value, ¬ IsHeader .contentLength line value := by simp [IsHeader, hhead]
      cases k with
      | none => exact hfront rfl hno
      | some n =>
        by_cases hblank : Blank line
        · exact form_of_blank prelude block hblank hlines
        · exact .inr (.inr ⟨_, _, rest, .header prelude block hlines hblank hhead⟩)
    | some hv =>
      obtain ⟨header, value⟩ := hv
      cases header with
      | contentLength =>
        by_cases hstates : ∃ n, States line n
        · obtain ⟨n, hn⟩ := hstates
          exact hheader (.length block hline.not_mem hn)
        · exact .inr (.inr ⟨_, _, rest, .length prelude block hlines hhead (not_exists.1 hstates)⟩)
      | contentType =>
        have hno : ∀ value, ¬ IsHeader .contentLength line value := by simp [IsHeader, hhead]
        cases k with
        | none => exact hfront rfl hno
        | some n => exact hheader (.type block hline.not_mem hhead)

theorem form (bytes : List UInt8) :
    (∃ out m rest, Framed depth bytes out m rest) ∨ (∃ out, CutShort bytes out) ∨
      ∃ out e rest, Faulty depth bytes out e rest :=
  form_of_lines .nil .empty (.nil bytes)

/-! ## The grammar -/

theorem readMessage_eq_message_iff {out : List String} {m : Json.Object} :
    readMessage ⟨.ideal, depth⟩ bytes = ⟨out, .message m, rest⟩ ↔
      Framed depth bytes out m rest := by
  refine ⟨fun h => ?_, Framed.readMessage⟩
  rcases form bytes with ⟨out', m', rest', hf⟩ | ⟨out', hf⟩ | ⟨out', e, rest', hf⟩
  · have heq := hf.readMessage.symm.trans h
    simp only [Reading.mk.injEq, Ending.message.injEq] at heq
    obtain ⟨rfl, rfl, rfl⟩ := heq
    exact hf
  · have heq := hf.readMessage.symm.trans h
    simp at heq
  · have heq := hf.readMessage.symm.trans h
    simp at heq

theorem readMessage_eq_bad_iff {out : List String} {e : BodyFault} :
    readMessage ⟨.ideal, depth⟩ bytes = ⟨out, .bad e, rest⟩ ↔ Faulty depth bytes out e rest := by
  refine ⟨fun h => ?_, Faulty.readMessage⟩
  rcases form bytes with ⟨out', m', rest', hf⟩ | ⟨out', hf⟩ | ⟨out', e', rest', hf⟩
  · have heq := hf.readMessage.symm.trans h
    simp at heq
  · have heq := hf.readMessage.symm.trans h
    simp at heq
  · have heq := hf.readMessage.symm.trans h
    simp only [Reading.mk.injEq, Ending.bad.injEq] at heq
    obtain ⟨rfl, rfl, rfl⟩ := heq
    exact hf

theorem readMessage_eq_ended_iff {out : List String} :
    readMessage ⟨.ideal, depth⟩ bytes = ⟨out, .ended, []⟩ ↔ CutShort bytes out := by
  refine ⟨fun h => ?_, CutShort.readMessage⟩
  rcases form bytes with ⟨out', m', rest', hf⟩ | ⟨out', hf⟩ | ⟨out', e, rest', hf⟩
  · have heq := hf.readMessage.symm.trans h
    simp at heq
  · have heq := hf.readMessage.symm.trans h
    simp only [Reading.mk.injEq, and_true] at heq
    exact heq ▸ hf
  · have heq := hf.readMessage.symm.trans h
    simp at heq

/-- A message has the same place in front of any other bytes. -/
theorem Framed.replace_rest {out : List String} {m : Json.Object}
    (h : Framed depth bytes out m rest) :
    ∃ read, bytes = read ++ rest ∧ ∀ rest', Framed depth (read ++ rest') out m rest' := by
  cases h with
  | intro prelude block hblank length text value =>
    exact ⟨_, rfl, fun rest' => .intro prelude block hblank length text value⟩

/-- **Reading accepts exactly the grammar.** On any bytes it gives a message, the console output in
front of it and the bytes behind it exactly if they begin with the message; it ends without one
exactly if they are cut short, which is to say that they begin neither with a message nor with
anything that cannot be read; and what is behind a message plays no part. -/
theorem readMessage_grammar (depth : Nat) (bytes : List UInt8) :
    (∀ out m rest, readMessage ⟨.ideal, depth⟩ bytes = ⟨out, .message m, rest⟩ ↔
      Framed depth bytes out m rest) ∧
    (∀ out, readMessage ⟨.ideal, depth⟩ bytes = ⟨out, .ended, []⟩ ↔ CutShort bytes out) ∧
    (∀ out e rest,
      readMessage ⟨.ideal, depth⟩ bytes = ⟨out, .bad e, rest⟩ ↔ Faulty depth bytes out e rest) ∧
    ((readMessage ⟨.ideal, depth⟩ bytes).ending = .ended ↔
      (¬ ∃ out m rest, Framed depth bytes out m rest) ∧
        ¬ ∃ out e rest, Faulty depth bytes out e rest) ∧
    ∀ out m rest, readMessage ⟨.ideal, depth⟩ bytes = ⟨out, .message m, rest⟩ →
      ∃ read, bytes = read ++ rest ∧
        ∀ rest', readMessage ⟨.ideal, depth⟩ (read ++ rest') = ⟨out, .message m, rest'⟩ := by
  refine ⟨fun out m rest => readMessage_eq_message_iff, fun out => readMessage_eq_ended_iff,
    fun out e rest => readMessage_eq_bad_iff, ⟨fun h => ⟨?_, ?_⟩, fun h => ?_⟩,
    fun out m rest h => ?_⟩
  · rintro ⟨out, m, rest, hf⟩
    rw [hf.readMessage] at h
    cases h
  · rintro ⟨out, e, rest, hf⟩
    rw [hf.readMessage] at h
    cases h
  · rcases form bytes with hf | ⟨out, hf⟩ | hf
    · exact absurd hf h.1
    · rw [hf.readMessage]
    · exact absurd hf h.2
  · obtain ⟨read, heq, hread⟩ := (readMessage_eq_message_iff.1 h).replace_rest
    exact ⟨read, heq, fun rest' => (hread rest').readMessage⟩

end SymbolAtlas.Frame
