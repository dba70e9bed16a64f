import SymbolAtlas.Proofs.Json.RoundTrip
import SymbolAtlas.Proofs.Rpc.Grammar

/-!
# Messages among console output

What is written is read: messages that were framed, with lines of console output between them in
any order, come out of the stream one by one, and the lines with them.

* `Frame.Item` — a message or a line, with its bytes and what it gives;
* `Frame.Item.Carried` — the messages that have bytes and the lines that are no headers;
* `Frame.readAt_wrap` — the headers of a frame lead to its body;
* `Frame.readAll_items` — the whole stream is read back.
-/

namespace SymbolAtlas.Frame

open Text

/-! ## The headers of a frame -/

/-- The characters of the header line that states a length. -/
def lengthLine (n : Nat) : List Char :=
  "Content-Length: ".toList ++ Nat.toDigits 10 n

theorem isLineEnd_lengthLine {n : Nat} : ∀ c ∈ lengthLine n, isLineEnd c = false := by
  intro c hc
  rcases List.mem_append.1 hc with hc | hc
  · have hname : ("Content-Length: ".toList.all fun c => !isLineEnd c) = true := by decide
    simpa using List.all_eq_true.1 hname c hc
  · have hdigit := Numeral.isDigit_of_mem_toDigits hc
    simp [isLineEnd, Numeral.ne_of_isDigit hdigit]

theorem toNat_lengthLine {n : Nat} : ∀ c ∈ lengthLine n, c.toNat < 0x80 := by
  intro c hc
  rcases List.mem_append.1 hc with hc | hc
  · have hname : ("Content-Length: ".toList.all fun c => decide (c.toNat < 0x80)) = true := by
      decide
    simpa using List.all_eq_true.1 hname c hc
  · have hdigit := Numeral.isDigit_iff.1 (Numeral.isDigit_of_mem_toDigits hc)
    omega

theorem lineText_lengthLine (n : Nat) :
    lineText (Utf8.encode (lengthLine n ++ ['\r'])) = String.ofList (lengthLine n) := by
  rw [lineText, Utf8.decodeLossy_encode, dropLastWhile_append (by simp [isLineEnd]),
    dropLastWhile_eq_self isLineEnd_lengthLine]

theorem header?_lengthLine (n : Nat) :
    header? (String.ofList (lengthLine n)) =
      some (.contentLength, String.ofList (Nat.toDigits 10 n)) := by
  have hcut : cutAt ':' (lengthLine n) =
      some ("Content-Length".toList, ' ' :: Nat.toDigits 10 n) := rfl
  have hblank : ∀ c ∈ Nat.toDigits 10 n, isBlank c = false := fun c hc =>
    Numeral.not_isBlank_of_isDigit (Numeral.isDigit_of_mem_toDigits hc)
  have htrim : trimChars (' ' :: Nat.toDigits 10 n) = Nat.toDigits 10 n := by
    rw [trimChars, List.dropWhile_cons_of_pos rfl, dropWhile_eq_self hblank,
      dropLastWhile_eq_self hblank]
  have hname : Header.ofName? (trimChars "Content-Length".toList) = some .contentLength := by
    decide
  rw [header?, String.toList_ofList, hcut]
  dsimp only
  rw [hname, htrim]
  rfl

theorem states_lengthLine {n : Nat} (hpos : 1 ≤ n)
    (short : (Nat.toDigits 10 n).length ≤ Numeral.maxDigits) :
    States (Utf8.encode (lengthLine n ++ ['\r'])) n := by
  refine ⟨_, ?_, Numeral.readInt?_toDigits short, hpos⟩
  rw [IsHeader, lineText_lengthLine, header?_lengthLine]

theorem lineFeed_not_mem_lengthLine (n : Nat) :
    lineFeed ∉ Utf8.encode (lengthLine n ++ ['\r']) := by
  intro hmem
  have hascii : ∀ c ∈ lengthLine n ++ ['\r'], c.toNat < 0x80 := by
    intro c hc
    rcases List.mem_append.1 hc with hc | hc
    · exact toNat_lengthLine c hc
    · rw [List.mem_singleton.1 hc]
      decide
  obtain ⟨c, hc, heq⟩ := Utf8.exists_of_mem_encode hascii hmem
  have hfeed : c = '\n' := Char.toNat_inj.1 heq.symm
  rcases List.mem_append.1 hc with hc | hc
  · have hend := isLineEnd_lengthLine c hc
    rw [hfeed] at hend
    cases hend
  · rw [hfeed] at hc
    exact absurd (List.mem_singleton.1 hc) (by decide)

theorem toList_headers (n : Nat) : (s!"Content-Length: {n}\r\n\r\n").toList =
    lengthLine n ++ ['\r'] ++ ['\n', '\r', '\n'] := by
  unfold lengthLine
  simp only [toString, String.toList_append, Nat.toList_repr, List.append_assoc]
  rfl

theorem wrap_eq (body : List UInt8) :
    wrap body =
      spell [Utf8.encode (lengthLine body.length ++ ['\r']), [carriageReturn]] ++ body := by
  have hend : Utf8.encode ['\n', '\r', '\n'] = [lineFeed, carriageReturn, lineFeed] := by
    decide
  rw [wrap, toList_headers, Utf8.encode_append, hend]
  simp [spell]

/-- **The headers of a frame lead to its body.** -/
theorem readAt_wrap {reader : Reader} {body : List UInt8} (hpos : body ≠ [])
    (short : (Nat.toDigits 10 body.length).length ≤ Numeral.maxDigits) (rest : List UInt8) :
    readAt reader (.headers none) (wrap body ++ rest) =
      readAt reader (.body body.length) (body ++ rest) := by
  obtain ⟨line, hdef⟩ : ∃ line, line = Utf8.encode (lengthLine body.length ++ ['\r']) := ⟨_, rfl⟩
  have hblank : Blank [carriageReturn] := by simp [Blank]
  have hline : lineFeed ∉ line := hdef ▸ lineFeed_not_mem_lengthLine _
  have hlines : Lines ([] ++ [line] ++ [[carriageReturn]]) (wrap body ++ rest) (body ++ rest) := by
    rw [wrap_eq, ← hdef, List.append_assoc (spell _)]
    refine Lines.spell ?_ _
    intro l hl
    rcases List.mem_pair.1 hl with rfl | rfl
    · exact hline
    · exact hblank.not_mem
  have hblock : Block [line] (some body.length) :=
    .length .empty hline (hdef ▸ states_lengthLine (List.length_pos_iff.2 hpos) short)
  exact hlines.readAt_blank .nil hblock hblank

/-! ## Streams of messages and lines -/

/-- Something on a stream. -/
inductive Item
  | message (m : Json.Object)
  /-- A line of bytes, without its line feed. -/
  | line (bytes : List UInt8)

/-- The bytes of what is on the stream. -/
def Item.bytes? : Item → Option (List UInt8)
  | .message m => encode? (.obj m)
  | .line l => some (l ++ [lineFeed])

/-- The message that is on the stream. -/
def Item.message? : Item → Option Json.Object
  | .message m => some m
  | .line _ => none

/-- The console output that is on the stream: the text of a line, if it has any. -/
def Item.text? : Item → Option String
  | .message _ => none
  | .line l => if (lineText l).isEmpty then none else some (lineText l)

/-- The lengths that can be stated to the reader and asked for by it. -/
def Reader.Takes (reader : Reader) (n : Nat) : Prop :=
  (Nat.toDigits 10 n).length ≤ Numeral.maxDigits ∧ reader.origin.refuses n = none

/-- Every reader takes the length of a body that memory is found for. -/
theorem Reader.takes_of_le (reader : Reader) {n : Nat} (h : n ≤ maxBuffer) : reader.Takes n := by
  have hdigits : (Nat.toDigits 10 n).length ≤ 12 := by
    refine (Nat.length_toDigits_le_iff (by decide) (by decide)).2 ?_
    exact Nat.lt_of_le_of_lt h (by decide)
  have haddress : ¬ maxAddress < n := by
    unfold maxBuffer maxAddress at *
    omega
  have hbuffer : ¬ maxAddress - bufferHead < n := by
    unfold maxBuffer maxAddress bufferHead at *
    omega
  refine ⟨hdigits.trans (by decide), ?_⟩
  cases reader.origin with
  | ideal => rfl
  | memory => exact if_neg haddress
  | pipe => rw [Origin.refuses, if_neg haddress, if_neg hbuffer, if_neg (Nat.not_lt.2 h)]

/-- A reader takes the length of a body whose text is not too long, whatever characters it has. -/
theorem Reader.takes_of_render (reader : Reader) {v : Json} {cs : List Char}
    (hrender : v.render = ofChars cs) (hle : 4 * cs.length ≤ maxBuffer) {body : List UInt8}
    (hbody : Utf8.encode? v.render = some body) : reader.Takes body.length := by
  rw [hrender, Utf8.encode?, toChars?_ofChars] at hbody
  obtain rfl := Option.some.inj hbody
  exact reader.takes_of_le ((Utf8.length_encode_le cs).trans hle)

/-- What comes through: a plain message whose body has a length that the reader takes, and a line
that is no header. -/
def Item.Carried (reader : Reader) (depth : Nat) : Item → Prop
  | .message m => Json.Plain depth (.obj m) ∧
      ∀ body, Utf8.encode? (Json.obj m).render = some body → reader.Takes body.length
  | .line l => lineFeed ∉ l ∧ header? (lineText l) = none

/-- A message at the front is the first one of the transcript. -/
theorem readAll_message {reader : Reader} {depth : Nat} (hdepth : depth ≤ reader.depth)
    {m : Json.Object} (h : (Item.message m).Carried reader depth) :
    ∃ bytes, encode? (.obj m) = some bytes ∧ ∀ rest, readAll reader (bytes ++ rest) =
      { readAll reader rest with messages := m :: (readAll reader rest).messages } := by
  obtain ⟨plain, htakes⟩ := h
  obtain ⟨cs, hrender, hread⟩ := plain.readChars_render hdepth
  have hbody : Utf8.encode? (Json.obj m).render = some (Utf8.encode cs) := by
    rw [hrender, Utf8.encode?, toChars?_ofChars]
    rfl
  obtain ⟨short, hasks⟩ := htakes _ hbody
  refine ⟨wrap (Utf8.encode cs), by rw [encode?, hbody]; rfl, fun rest => ?_⟩
  have hne : Utf8.encode cs ≠ [] := by
    intro hnil
    have hcs := Utf8.decode_encode cs
    rw [hnil] at hcs
    obtain rfl : [] = cs := Option.some.inj hcs
    cases hread
  have hvalue : readBody reader.depth (Utf8.encode cs) = .ok m :=
    readBody_eq_ok_iff.2 ⟨cs, Utf8.decode_encode cs, hread⟩
  have hlong : ¬ (Utf8.encode cs ++ rest).length < (Utf8.encode cs).length := by
    rw [List.length_append]
    omega
  rw [readAll_eq, readAt_wrap hne short, readAt_body hasks, if_neg hlong, afterBody_ok rfl hvalue]
  rfl

/-- A line at the front is console output, if it has a text. -/
theorem readAll_line {reader : Reader} {l : List UInt8} (hl : lineFeed ∉ l)
    (hother : header? (lineText l) = none) (rest : List UInt8) :
    readAll reader (l ++ [lineFeed] ++ rest) =
      { readAll reader rest with
        output := (Item.line l).text?.toList ++ (readAll reader rest).output } := by
  have hshown : shown? l = (Item.line l).text? := by
    rw [shown?, Item.text?]
    by_cases hblank : Blank l
    · rw [if_neg fun hs => hs.1 hblank, if_pos ((isEmpty_lineText hl).2 hblank)]
    · rw [if_pos ⟨hblank, hother⟩, if_neg (mt (isEmpty_lineText hl).1 hblank)]
  have hno : ∀ value, ¬ IsHeader .contentLength l value := by simp [IsHeader, hother]
  rw [List.append_assoc, List.singleton_append, readAll_eq, readAt_prelude_line (.fed hl rest) hno,
    followed_prepend, ← readAll_eq, hshown]

/-- **Everything on a stream is read back.** Messages that were framed come out in order and the
texts of the lines between them go to the console in order, down to the last byte. -/
theorem readAll_items {reader : Reader} {depth : Nat} (hdepth : depth ≤ reader.depth)
    {items : List Item} (h : ∀ item ∈ items, item.Carried reader depth) :
    ∃ chunks, items.mapM Item.bytes? = some chunks ∧
      readAll reader chunks.flatten =
        ⟨items.filterMap Item.message?, items.filterMap Item.text?, none, []⟩ := by
  induction items with
  | nil =>
    refine ⟨[], rfl, ?_⟩
    rw [List.flatten_nil, readAll_eq, readAt_nil]
    rfl
  | cons item items ih =>
    obtain ⟨chunks, hchunks, hread⟩ := ih fun i hi => h i (List.mem_cons_of_mem _ hi)
    have hitem := h item (List.mem_cons_self ..)
    cases item with
    | message m =>
      obtain ⟨bytes, hbytes, hfirst⟩ := readAll_message hdepth hitem
      refine ⟨bytes :: chunks, ?_, ?_⟩
      · simp [Item.bytes?, hbytes, hchunks]
      · rw [List.flatten_cons, hfirst, hread]
        rfl
    | line l =>
      refine ⟨(l ++ [lineFeed]) :: chunks, ?_, ?_⟩
      · simp [Item.bytes?, hchunks]
      · rw [List.flatten_cons, readAll_line hitem.1 hitem.2, hread, List.filterMap_cons,
          List.filterMap_cons]
        cases (Item.line l).text? <;> rfl

/-- A reader of what is in memory, who has used up few of its calls. -/
def sampleReader : Reader := ⟨.memory, 990⟩

/-- A message between console output and a blank line. -/
def mixed : List Item :=
  [.line (Utf8.encode "Starting\r".toList), .message [("method", .str "exit"), ("id", .int (-7))],
    .line [carriageReturn]]

theorem mixed_carried : ∀ item ∈ mixed, item.Carried sampleReader 60 := by
  have hlength : (Utf8.encode? (Json.obj [("method", .str "exit"), ("id", .int (-7))]).render).map
      List.length = some 28 := by decide +kernel
  simp only [mixed, List.forall_mem_cons]
  refine ⟨⟨by decide, by decide⟩, ⟨?_, ?_⟩, ⟨by decide, by decide⟩, by simp⟩
  · refine .obj ?_ ?_ (by decide)
    · simp only [List.forall_mem_cons]
      exact ⟨.str _, .int (by decide), by simp⟩
    · simp only [List.forall_mem_cons]
      exact ⟨⟨_, rfl⟩, ⟨_, rfl⟩, by simp⟩
  · intro body hbody
    rw [hbody] at hlength
    have heq : body.length = 28 := Option.some.inj hlength
    exact Reader.takes_of_le _ (by rw [heq]; decide)

theorem readAll_items_mixed : 60 ≤ sampleReader.depth ∧
    (∀ item ∈ mixed, item.Carried sampleReader 60) ∧
    ∃ chunks, mixed.mapM Item.bytes? = some chunks ∧
      readAll sampleReader chunks.flatten =
        ⟨[[("method", .str "exit"), ("id", .int (-7))]], ["Starting"], none, []⟩ :=
  ⟨by decide, mixed_carried, readAll_items (by decide) mixed_carried⟩

end SymbolAtlas.Frame
