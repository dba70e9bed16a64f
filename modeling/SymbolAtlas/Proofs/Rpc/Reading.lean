import Mathlib.Data.List.TakeDrop
import Mathlib.Data.List.TakeWhile
import SymbolAtlas.Rpc.Frame

/-!
# Reading without fuel

A reading takes one line or one body after another, and what it comes to does not depend on the
fuel. So it has equations of its own, one for each thing that may come first, and statements about
streams use these alone.

* `Frame.FirstLine` — the line at the front of some bytes; the last line may lack its line feed;
* `Frame.readAt` — the reading from a stage on, with `Frame.FirstLine.readAt` and
  `Frame.readAt_body`;
* `Frame.Reading.followed` — a reading and all those after it;
* `Frame.readAll_eq` — everything in a stream is its first reading and what follows.
-/

namespace SymbolAtlas.Frame

/-! ## The line at the front -/

/-- The bytes begin with the line, and the rest follows. -/
inductive FirstLine : List UInt8 → List UInt8 → List UInt8 → Prop
  | fed {line : List UInt8} (h : lineFeed ∉ line) (rest : List UInt8) :
      FirstLine (line ++ lineFeed :: rest) line rest
  | last {line : List UInt8} (h : lineFeed ∉ line) (hne : line ≠ []) : FirstLine line line []

variable {bytes line rest : List UInt8}

theorem FirstLine.not_mem (h : FirstLine bytes line rest) : lineFeed ∉ line := by
  cases h <;> assumption

theorem FirstLine.length_lt (h : FirstLine bytes line rest) : rest.length < bytes.length := by
  cases h with
  | fed h rest =>
    simp only [List.length_append, List.length_cons]
    omega
  | last h hne => exact List.length_pos_iff.2 hne

/-- In front of other bytes the line has its line feed. -/
theorem FirstLine.eq_of_ne_nil (h : FirstLine bytes line rest) (hne : rest ≠ []) :
    bytes = line ++ lineFeed :: rest := by
  cases h with
  | fed => rfl
  | last => exact absurd rfl hne

theorem exists_firstLine (hne : bytes ≠ []) : ∃ line rest, FirstLine bytes line rest := by
  by_cases hmem : lineFeed ∈ bytes
  · obtain ⟨line, rest, rfl, hline⟩ := List.eq_append_cons_of_mem hmem
    exact ⟨line, rest, .fed hline rest⟩
  · exact ⟨bytes, [], .last hmem hne⟩

theorem span_of_not_mem (h : lineFeed ∉ line) (rest : List UInt8) :
    (line ++ lineFeed :: rest).span (· != lineFeed) = (line, lineFeed :: rest) ∧
      line.span (· != lineFeed) = (line, []) := by
  have hline : ∀ b ∈ line, (b != lineFeed) = true := by
    intro b hb
    rw [bne_iff_ne]
    rintro rfl
    exact h hb
  refine ⟨?_, ?_⟩
  · rw [List.span_eq_takeWhile_dropWhile, List.takeWhile_append_of_pos hline,
      List.dropWhile_append_of_pos hline]
    simp
  · rw [List.span_eq_takeWhile_dropWhile, List.takeWhile_eq_self_iff.2 hline,
      List.dropWhile_eq_nil_iff.2 hline]

theorem cutLine?_fed (h : lineFeed ∉ line) (rest : List UInt8) (atEnd : Bool) :
    Frame.cutLine? (line ++ lineFeed :: rest) atEnd = some (line, rest) := by
  rw [Frame.cutLine?, (span_of_not_mem h rest).1]

/-- A line without its line feed is no line before the end of the stream. -/
theorem cutLine?_of_not_mem (h : lineFeed ∉ bytes) (atEnd : Bool) :
    Frame.cutLine? bytes atEnd = if atEnd && !bytes.isEmpty then some (bytes, []) else none := by
  rw [Frame.cutLine?, (span_of_not_mem h []).2]

theorem FirstLine.cutLine? (h : FirstLine bytes line rest) :
    Frame.cutLine? bytes true = some (line, rest) := by
  cases h with
  | fed h rest => exact cutLine?_fed h rest true
  | last h hne =>
    rw [cutLine?_of_not_mem h]
    simpa using hne

theorem cutLine?_nil (atEnd : Bool) : cutLine? [] atEnd = none := by
  simp [cutLine?]

/-! ## One reading -/

/-- The reading from a stage on. -/
def readAt (reader : Reader) (stage : Stage) (bytes : List UInt8) : Reading :=
  readFrom reader (bytes.length + 1) stage bytes

/-- The reading after a line of console output. -/
def Reading.prepend (texts : List String) (r : Reading) : Reading :=
  { r with output := texts ++ r.output }

@[simp] theorem Reading.prepend_nil (r : Reading) : r.prepend [] = r := rfl

@[simp] theorem Reading.prepend_prepend (r : Reading) (ts us : List String) :
    (r.prepend us).prepend ts = r.prepend (ts ++ us) := by
  simp [prepend]

/-- What a line among the headers comes to, and all that follows. -/
def afterLine (reader : Reader) (length : Option Nat) (line rest : List UInt8) : Reading :=
  match lineEffect length (lineText line) with
  | .headers length => readAt reader (.headers length) rest
  | .console text => (readAt reader (.headers none) rest).prepend [text]
  | .body n => readAt reader (.body n) rest
  | .bad e => ⟨[], .bad (.frame e), rest⟩

/-- What is left once the bytes of a body are taken. -/
def afterBody (reader : Reader) (n : Nat) (bytes : List UInt8) : Reading :=
  match readBody reader.depth (bytes.take n) with
  | .ok m => ⟨[], .message m, bytes.drop n⟩
  | .error e => ⟨[], .bad e, bytes.drop n⟩

variable {reader : Reader} {length : Option Nat}

theorem step_nil : step reader (.headers length) [] true = .ended := by
  simp [step, cutLine?_nil]

theorem step_body (n : Nat) : step reader (.body n) bytes true =
    match reader.origin.refuses n with
    | some e => .bad (.length e) bytes
    | none =>
      if bytes.length < n then .ended
      else match readBody reader.depth (bytes.take n) with
        | .ok m => .message m (bytes.drop n)
        | .error e => .bad e (bytes.drop n) := rfl

theorem FirstLine.step (h : FirstLine bytes line rest) :
    Frame.step reader (.headers length) bytes true =
      match lineEffect length (lineText line) with
      | .headers length => .onward (.headers length) rest
      | .console text => .console text rest
      | .body n => .onward (.body n) rest
      | .bad e => .bad (.frame e) rest := by
  have hcut := h.cutLine?
  cases heffect : lineEffect length (lineText line) <;> simp [Frame.step, hcut, heffect]

/-- At the end of a stream there is nothing to wait for. -/
theorem step_ne_waiting {stage : Stage} : step reader stage bytes true ≠ .waiting := by
  cases stage with
  | headers length =>
    by_cases hne : bytes = []
    · subst hne
      simp [step_nil]
    · obtain ⟨line, rest, hline⟩ := exists_firstLine hne
      rw [hline.step]
      split <;> simp
  | body n =>
    rw [step_body]
    split
    · simp
    split
    · simp
    split <;> simp

/-- A step that is not the last one takes a line. -/
theorem step_shorter {stage : Stage} :
    (∀ next rest, step reader stage bytes true = .onward next rest → rest.length < bytes.length) ∧
      ∀ text rest, step reader stage bytes true = .console text rest →
        rest.length < bytes.length := by
  cases stage with
  | headers length =>
    by_cases hne : bytes = []
    · subst hne
      simp [step_nil]
    · obtain ⟨line, rest, hline⟩ := exists_firstLine hne
      have hlt := hline.length_lt
      rw [hline.step]
      refine ⟨fun next rest' h => ?_, fun text rest' h => ?_⟩ <;> split at h <;> simp at h
      · exact h.2 ▸ hlt
      · exact h.2 ▸ hlt
      · exact h.2 ▸ hlt
  | body n =>
    rw [step_body]
    refine ⟨fun next rest h => ?_, fun text rest h => ?_⟩
    all_goals
      split at h
      · cases h
      split at h
      · cases h
      split at h <;> cases h

/-- Fuel beyond the number of bytes changes nothing: by induction on the fuel, each step but the
last one taking a byte. -/
theorem readFrom_congr {fuel fuel' : Nat} {stage : Stage} (h : bytes.length < fuel)
    (h' : bytes.length < fuel') :
    readFrom reader fuel stage bytes = readFrom reader fuel' stage bytes := by
  induction fuel generalizing fuel' stage bytes with
  | zero => omega
  | succ fuel ih =>
    obtain ⟨fuel', rfl⟩ : ∃ k, fuel' = k + 1 := ⟨fuel' - 1, by omega⟩
    rw [readFrom, readFrom]
    cases hstep : step reader stage bytes true with
    | onward next rest =>
      have hlt := step_shorter.1 _ _ hstep
      exact ih (by omega) (by omega)
    | console text rest =>
      have hlt := step_shorter.2 _ _ hstep
      have hrest : readFrom reader fuel (.headers none) rest =
          readFrom reader fuel' (.headers none) rest := ih (by omega) (by omega)
      dsimp only
      rw [hrest]
    | waiting => rfl
    | ended => rfl
    | message m rest => rfl
    | bad e rest => rfl

/-- The first step of a reading. -/
theorem readAt_eq (reader : Reader) (stage : Stage) (bytes : List UInt8) :
    readAt reader stage bytes =
      match step reader stage bytes true with
      | .waiting | .ended => ⟨[], .ended, []⟩
      | .onward stage rest => readAt reader stage rest
      | .console text rest => (readAt reader (.headers none) rest).prepend [text]
      | .message m rest => ⟨[], .message m, rest⟩
      | .bad e rest => ⟨[], .bad e, rest⟩ := by
  rw [readAt, readFrom]
  cases hstep : step reader stage bytes true with
  | onward next rest =>
    have hlt := step_shorter.1 _ _ hstep
    exact readFrom_congr (by omega) (by omega)
  | console text rest =>
    have hlt := step_shorter.2 _ _ hstep
    dsimp only
    rw [readFrom_congr (by omega) (Nat.lt_succ_self _)]
    rfl
  | waiting => rfl
  | ended => rfl
  | message m rest => rfl
  | bad e rest => rfl

@[simp] theorem readAt_nil : readAt reader (.headers length) [] = ⟨[], .ended, []⟩ := by
  rw [readAt_eq, step_nil]

theorem FirstLine.readAt (h : FirstLine bytes line rest) :
    Frame.readAt reader (.headers length) bytes = afterLine reader length line rest := by
  rw [readAt_eq, h.step, afterLine]
  cases lineEffect length (lineText line) <;> rfl

theorem readAt_body {n : Nat} (h : reader.origin.refuses n = none) :
    readAt reader (.body n) bytes =
      if bytes.length < n then ⟨[], .ended, []⟩ else afterBody reader n bytes := by
  rw [readAt_eq, step_body, h, afterBody]
  dsimp only
  by_cases hlt : bytes.length < n
  · rw [if_pos hlt, if_pos hlt]
  · rw [if_neg hlt, if_neg hlt]
    cases readBody reader.depth (bytes.take n) <;> rfl

theorem afterBody_ok {n : Nat} {body : List UInt8} {m : Json.Object} (hn : body.length = n)
    (h : readBody reader.depth body = .ok m) (rest : List UInt8) :
    afterBody reader n (body ++ rest) = ⟨[], .message m, rest⟩ := by
  rw [afterBody, ← hn, List.take_left, List.drop_left, h]

theorem afterBody_error {n : Nat} {body : List UInt8} {e : BodyFault} (hn : body.length = n)
    (h : readBody reader.depth body = .error e) (rest : List UInt8) :
    afterBody reader n (body ++ rest) = ⟨[], .bad e, rest⟩ := by
  rw [afterBody, ← hn, List.take_left, List.drop_left, h]

/-! ## All readings -/

/-- A message takes at least one byte, since nothing is no body. -/
theorem length_lt_of_step_message {stage : Stage} {m : Json.Object}
    (h : step reader stage bytes true = .message m rest) : rest.length < bytes.length := by
  cases stage with
  | headers length =>
    by_cases hne : bytes = []
    · subst hne
      simp [step_nil] at h
    · obtain ⟨line, rest', hline⟩ := exists_firstLine hne
      rw [hline.step] at h
      split at h <;> simp at h
  | body n =>
    rw [step_body] at h
    split at h
    · cases h
    split at h
    · cases h
    · next hlong =>
      split at h
      · next m' hbody =>
        simp only [Found.message.injEq] at h
        have hpos : n ≠ 0 := by
          rintro rfl
          cases hbody
        rw [← h.2, List.length_drop]
        omega
      · cases h

theorem length_rest_lt {stage : Stage} {m : Json.Object}
    (h : (readAt reader stage bytes).ending = .message m) :
    (readAt reader stage bytes).rest.length < bytes.length := by
  induction hn : bytes.length using Nat.strongRecOn generalizing stage bytes with
  | ind n ih =>
    subst hn
    rw [readAt_eq] at h ⊢
    cases hstep : step reader stage bytes true with
    | onward next rest =>
      have hlt := step_shorter.1 _ _ hstep
      rw [hstep] at h
      exact Nat.lt_trans (ih _ hlt h rfl) hlt
    | console text rest =>
      have hlt := step_shorter.2 _ _ hstep
      rw [hstep] at h
      have hm : (readAt reader (.headers none) rest).ending = .message m := h
      exact Nat.lt_trans (ih _ hlt hm rfl) hlt
    | message m rest => exact length_lt_of_step_message hstep
    | waiting => simp [hstep] at h
    | ended => simp [hstep] at h
    | bad e rest => simp [hstep] at h

/-- A reading and, if it gave a message, all those after it. -/
def Reading.followed (reader : Reader) (r : Reading) : Transcript :=
  match r.ending with
  | .ended => ⟨[], r.output, none, r.rest⟩
  | .bad e => ⟨[], r.output, some e, r.rest⟩
  | .message m =>
    let t := readAll reader r.rest
    { t with messages := m :: t.messages, output := r.output ++ t.output }

/-- A transcript after lines of console output. -/
theorem followed_prepend (reader : Reader) (texts : List String) (r : Reading) :
    (r.prepend texts).followed reader =
      { r.followed reader with output := texts ++ (r.followed reader).output } := by
  unfold Reading.followed Reading.prepend
  cases r.ending <;> simp

theorem readMessage_eq : readMessage reader bytes = readAt reader (.headers none) bytes := rfl

theorem readMany_congr {fuel fuel' : Nat} (h : bytes.length < fuel) (h' : bytes.length < fuel') :
    readMany reader fuel bytes = readMany reader fuel' bytes := by
  induction fuel generalizing fuel' bytes with
  | zero => omega
  | succ fuel ih =>
    obtain ⟨fuel', rfl⟩ : ∃ k, fuel' = k + 1 := ⟨fuel' - 1, by omega⟩
    rw [readMany, readMany, readMessage_eq]
    cases hending : (readAt reader (.headers none) bytes).ending with
    | ended => rfl
    | bad e => rfl
    | message m =>
      have hlt := length_rest_lt hending
      have hrest : readMany reader fuel (readAt reader (.headers none) bytes).rest =
          readMany reader fuel' (readAt reader (.headers none) bytes).rest :=
        ih (by omega) (by omega)
      dsimp only
      rw [hrest]

/-- **Everything in a stream is its first reading and what follows.** -/
theorem readAll_eq (reader : Reader) (bytes : List UInt8) :
    readAll reader bytes = (readAt reader (.headers none) bytes).followed reader := by
  rw [readAll, readMany, readMessage_eq, Reading.followed]
  cases hending : (readAt reader (.headers none) bytes).ending with
  | ended => rfl
  | bad e => rfl
  | message m =>
    have hlt := length_rest_lt hending
    have hrest : readMany reader bytes.length (readAt reader (.headers none) bytes).rest =
        readAll reader (readAt reader (.headers none) bytes).rest :=
      readMany_congr (by omega) (by omega)
    dsimp only
    rw [hrest]

end SymbolAtlas.Frame
