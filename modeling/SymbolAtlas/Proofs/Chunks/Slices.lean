import SymbolAtlas.Proofs.Chunks.Collection
import SymbolAtlas.Proofs.Text.Cutting

/-!
# Slices of a document

The source of a method are the lines of its range, as far as the document has them, with the line
feeds between them. A slice is therefore one piece of the document that begins and ends where lines
do, and slices of adjacent ranges make up the slice of both.

* `MethodChunk.slice` — the lines of a document from one to another, with
  `MethodChunk.code_of_mem_extract`;
* `MethodChunk.slice_append`, `MethodChunk.eq_around_slice` — how slices go together, and where
  in the document a slice is;
* `MethodChunk.slice_laws` — the whole.
-/

namespace SymbolAtlas.MethodChunk

open Text

/-- The lines of a document from `first` to `last`, both included, as far as they exist. -/
def slice (text : String) (first last : Nat) : String :=
  sliceLines (linesOf text) first last

/-- The number of lines of a document. -/
def lineCount (text : String) : Nat :=
  (linesOf text).length

/-! ## Slices as pieces -/

/-- The pieces between the line feeds of a document. -/
def linePieces (text : String) : List (List Char) :=
  pieces '\n' text.toList

/-- The pieces from `first` to `last`. -/
def slicePieces (text : String) (first last : Nat) : List (List Char) :=
  ((linePieces text).drop first).take (last + 1 - first)

section

variable {text : String} {first last : Nat}

theorem map_toList_linesOf (text : String) :
    (linesOf text).map String.toList = linePieces text := by
  rw [linesOf, List.map_map]
  exact (List.map_congr_left fun cs _ => String.toList_ofList).trans (List.map_id _)

theorem length_linePieces (text : String) : (linePieces text).length = lineCount text := by
  rw [← map_toList_linesOf, List.length_map, lineCount]

theorem toList_slice (text : String) (first last : Nat) :
    (slice text first last).toList = joinPieces ['\n'] (slicePieces text first last) := by
  rw [slice, sliceLines, unlines, String.toList_ofList, slicePieces, ← map_toList_linesOf,
    List.map_take, List.map_drop]

theorem length_slicePieces :
    (slicePieces text first last).length = min (last + 1) (lineCount text) - first := by
  rw [slicePieces, List.length_take, List.length_drop, length_linePieces]
  omega

theorem slicePieces_ne_nil (hfirst : first < lineCount text) (h : first ≤ last) :
    slicePieces text first last ≠ [] := by
  rw [← List.length_pos_iff, length_slicePieces]
  omega

theorem not_mem_of_mem_linePieces {p : List Char} (hp : p ∈ linePieces text) : '\n' ∉ p :=
  not_mem_of_mem_pieces hp

theorem not_mem_of_mem_slicePieces {p : List Char} (hp : p ∈ slicePieces text first last) :
    '\n' ∉ p :=
  not_mem_of_mem_linePieces (List.mem_of_mem_drop (List.mem_of_mem_take hp))

/-- The pieces in front of a slice, its own, and those behind it. -/
theorem linePieces_eq (text : String) (first last : Nat) :
    linePieces text = (linePieces text).take first ++ (slicePieces text first last ++
      ((linePieces text).drop first).drop (last + 1 - first)) := by
  rw [slicePieces, List.take_append_drop, List.take_append_drop]

end

/-! ## The laws -/

section

variable {text : String} {first last next : Nat}

theorem slice_zero (h : lineCount text ≤ last + 1) : slice text 0 last = text := by
  rw [← String.toList_inj, toList_slice, slicePieces, List.drop_zero,
    List.take_of_length_le (by rw [length_linePieces]; omega)]
  exact joinPieces_pieces '\n' text.toList

theorem slicePieces_append (h : first ≤ last) (hnext : last < next) :
    slicePieces text first last ++ slicePieces text (last + 1) next =
      slicePieces text first next := by
  have hsplit : next + 1 - first = (last + 1 - first) + (next + 1 - (last + 1)) := by omega
  have hdrop : first + (last + 1 - first) = last + 1 := by omega
  rw [slicePieces, slicePieces, slicePieces, hsplit, List.take_add, List.drop_drop, hdrop]

/-- A slice and the slice that follows it make up one slice. -/
theorem slice_append (h : first ≤ last) (hnext : last < next) (hline : last + 1 < lineCount text) :
    slice text first last ++ "\n" ++ slice text (last + 1) next = slice text first next := by
  have hfront : slicePieces text first last ≠ [] := slicePieces_ne_nil (by omega) h
  have hback : slicePieces text (last + 1) next ≠ [] := slicePieces_ne_nil hline hnext
  rw [← String.toList_inj, String.toList_append, String.toList_append, toList_slice, toList_slice,
    toList_slice, ← slicePieces_append h hnext, joinPieces_append hfront hback]
  rfl

/-- The lines in front of a line, each with its line feed. -/
def linesBefore (text : String) (first : Nat) : String :=
  String.ofList (((linePieces text).take first).flatMap (· ++ ['\n']))

/-- The lines behind a slice, each with the line feed in front of it. -/
def linesAfter (text : String) (first last : Nat) : String :=
  String.ofList ((((linePieces text).drop first).drop (last + 1 - first)).flatMap (['\n'] ++ ·))

/-- A slice stands between the lines in front of it and those behind it. -/
theorem eq_around_slice (hfirst : first < lineCount text) (h : first ≤ last) :
    text = linesBefore text first ++ slice text first last ++ linesAfter text first last := by
  have hslice := slicePieces_ne_nil hfirst h
  have htext : text.toList = joinPieces ['\n'] (linePieces text) :=
    (joinPieces_pieces '\n' text.toList).symm
  rw [linePieces_eq text first last, joinPieces_append_left (by simp [hslice]),
    joinPieces_append_right hslice, ← toList_slice] at htext
  rw [← String.toList_inj, htext, linesBefore, linesAfter]
  simp

theorem count_linesBefore (hfirst : first < lineCount text) :
    (linesBefore text first).toList.count '\n' = first := by
  rw [linesBefore, String.toList_ofList,
    count_flatMap fun p hp => not_mem_of_mem_linePieces (List.mem_of_mem_take hp), List.length_take,
    length_linePieces]
  omega

theorem linesBefore_cases (text : String) (first : Nat) :
    linesBefore text first = "" ∨ ∃ s, linesBefore text first = s ++ "\n" := by
  rw [linesBefore]
  obtain hnone | ⟨ps, p, hps⟩ := List.eq_nil_or_concat ((linePieces text).take first)
  · exact .inl (by rw [hnone]; rfl)
  · refine .inr ⟨String.ofList (ps.flatMap (· ++ ['\n']) ++ p), ?_⟩
    rw [hps, List.concat_eq_append, List.flatMap_append, ← String.toList_inj]
    simp

theorem linesAfter_cases (text : String) (first last : Nat) :
    linesAfter text first last = "" ∨ ∃ s, linesAfter text first last = "\n" ++ s := by
  rw [linesAfter]
  cases ((linePieces text).drop first).drop (last + 1 - first) with
  | nil => exact .inl rfl
  | cons p ps =>
    refine .inr ⟨String.ofList (p ++ ps.flatMap (['\n'] ++ ·)), ?_⟩
    rw [List.flatMap_cons, ← String.toList_inj]
    simp

theorem count_slice (h : first ≤ last) :
    (slice text first last).toList.count '\n' = min last (lineCount text - 1) - first := by
  rw [toList_slice, count_joinPieces fun p hp => not_mem_of_mem_slicePieces hp, length_slicePieces]
  omega

theorem slice_empty (h : lineCount text ≤ first ∨ last < first) : slice text first last = "" := by
  have hnone : slicePieces text first last = [] := by
    rw [← List.length_eq_zero_iff, length_slicePieces]
    omega
  rw [← String.toList_inj, toList_slice, hnone]
  rfl

end

/-! ## What is recorded -/

/-- The code that is recorded for a method is the slice of its range. -/
theorem code_of_mem_extract {ns : List SymbolNode} {text : String} {c : MethodChunk}
    {r : Lsp.Range} (hc : c ∈ extract ns text)
    (hr : c.location.bind SymbolPlacement.range = some r) :
    c.code = slice text r.start.line r.stop.line := by
  rw [extract, findings_eq_filterMap, List.filterMap_filterMap] at hc
  obtain ⟨o, -, ho⟩ := List.mem_filterMap.1 hc
  obtain ⟨found, hfound, hchunk⟩ := Option.bind_eq_some_iff.1 ho
  unfold finding? at hfound
  split at hfound
  · split at hfound
    · cases hfound
      cases hchunk
      have hsource : o.node.location.bind SymbolPlacement.range = some r := hr
      simp [ofNode, sourceSlice, slice, hsource]
    · cases hfound
      cases hchunk
  · cases hfound

/-- **Slices are whole lines, contiguous, and compose.** What is recorded for a method is the slice
of its range. A slice from the first line to the last or beyond is the document. A slice and the one
that follows it, with a line feed between them, are the slice of both. A slice that begins in the
document is a piece of it, with as many line feeds in front of it as there are lines, the last of
them right in front of it, and a line feed or the end of the document behind it; it holds one line
feed less than it has lines. All other slices are empty. -/
theorem slice_laws (text : String) :
    (∀ ns c r, c ∈ extract ns text → c.location.bind SymbolPlacement.range = some r →
      c.code = slice text r.start.line r.stop.line) ∧
    lineCount text = text.toList.count '\n' + 1 ∧
    (∀ last, lineCount text ≤ last + 1 → slice text 0 last = text) ∧
    (∀ first last next, first ≤ last → last < next → last + 1 < lineCount text →
      slice text first last ++ "\n" ++ slice text (last + 1) next = slice text first next) ∧
    (∀ first last, first < lineCount text → first ≤ last →
      (∃ before after : String, text = before ++ slice text first last ++ after ∧
        before.toList.count '\n' = first ∧ (before = "" ∨ ∃ s, before = s ++ "\n") ∧
        (after = "" ∨ ∃ s, after = "\n" ++ s)) ∧
      (slice text first last).toList.count '\n' = min last (lineCount text - 1) - first) ∧
    ∀ first last, lineCount text ≤ first ∨ last < first → slice text first last = "" := by
  refine ⟨fun ns c r => code_of_mem_extract, ?_, fun last => slice_zero,
    fun first last next => slice_append, fun first last hfirst h => ⟨?_, count_slice h⟩,
    fun first last => slice_empty⟩
  · rw [← length_linePieces, linePieces, length_pieces]
  · exact ⟨linesBefore text first, linesAfter text first last, eq_around_slice hfirst h,
      count_linesBefore hfirst, linesBefore_cases text first, linesAfter_cases text first last⟩

/-- A method on some lines of a document. -/
def sampleMethod (name : String) (first last : Nat) : SymbolNode :=
  { name := name, kind := .known .method,
    location := some { uri := "file:///A.java", range := some ⟨⟨first, 2⟩, ⟨last, 3⟩⟩ },
    detail := none, children := [], flat := false }

/-- A class with two methods, the second of which is said to end behind the document. -/
def twoMethods : SymbolNode :=
  { name := "A", kind := .known .classKind, location := none, detail := none,
    children := [sampleMethod "f" 1 2, sampleMethod "g" 3 9], flat := false }

/-- A document that ends with a line feed, behind which there is one more line. -/
def sampleText : String :=
  "class A\n  f(a,\n    b)\n  g()\n\n"

/-- The two methods stand on adjacent lines, and their sources go together. -/
theorem slice_laws_sample :
    (∃ c ∈ extract [twoMethods] sampleText,
      c.location.bind SymbolPlacement.range = some ⟨⟨1, 2⟩, ⟨2, 3⟩⟩ ∧
        c.code = slice sampleText 1 2) ∧
      lineCount sampleText = 6 ∧
      slice sampleText 1 2 ++ "\n" ++ slice sampleText 3 9 = slice sampleText 1 9 ∧
      (slice sampleText 3 9).toList.count '\n' = 2 ∧ slice sampleText 0 9 = sampleText ∧
      slice sampleText 6 9 = "" := by
  obtain ⟨hcode, hlines, hall, happend, hpiece, hnone⟩ := slice_laws sampleText
  have hcount : lineCount sampleText = 6 := hlines
  have hmethod : ofNode (linesOf sampleText) "A" (sampleMethod "f" 1 2) ∈
      extract [twoMethods] sampleText := List.mem_cons_self ..
  obtain ⟨-, hfeeds⟩ := hpiece 3 9 (by omega) (by omega)
  rw [hcount] at hfeeds
  exact ⟨⟨_, hmethod, rfl, hcode _ _ _ hmethod rfl⟩, hcount,
    happend 1 2 9 (by omega) (by omega) (by omega), hfeeds, hall 9 (by omega), hnone 6 9 (by omega)⟩

end SymbolAtlas.MethodChunk
