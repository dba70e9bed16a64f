import SymbolAtlas.Cli.Answer
import SymbolAtlas.Proofs.Json.Indented

/-!
# What is printed about methods

The methods of a repository are printed as one JSON document, which is pure ASCII and is read as
exactly what is known of each method, in order. So the text tells the methods, and methods of which
different things are known are printed as different texts.

* `MethodChunk.Scalar` — the methods whose texts hold characters only;
* `MethodChunk.plain_wireAll` — what is given out about such methods is carried without loss;
* `ChunkRecord.wire_injective` — the JSON form of a record tells the record;
* `Command.chunks_printed` — the text that the command prints.
-/

namespace SymbolAtlas

namespace Text

/-- No surrogate stands alone in the text. -/
def IsScalar (t : Text) : Prop :=
  ∀ p ∈ t, ∃ c, p = .char c

theorem isScalar_ofString (s : String) : IsScalar (ofString s) := by
  intro p hp
  obtain ⟨c, -, rfl⟩ := List.mem_map.1 hp
  exact ⟨c, rfl⟩

theorem IsScalar.exists_chars {t : Text} (h : t.IsScalar) : ∃ cs, t = ofChars cs := by
  induction t with
  | nil => exact ⟨[], rfl⟩
  | cons p t ih =>
    obtain ⟨⟨c, rfl⟩, ht⟩ := List.forall_mem_cons.1 h
    obtain ⟨cs, rfl⟩ := ih ht
    exact ⟨c :: cs, rfl⟩

/-- A text without escape characters has no styles. -/
theorem dropStyles_eq_self {t : Text} (h : .char '\x1b' ∉ t) : dropStyles t = t := by
  induction t with
  | nil => rfl
  | cons p t ih =>
    rw [List.mem_cons, not_or] at h
    have hp : ¬p = .char '\x1b' := Ne.symm h.1
    rw [dropStyles, dropStylesFrom, if_neg hp]
    exact congrArg (p :: ·) (ih h.2)

theorem escaped_ofString (s : String) : escaped (ofString s) = s := by
  have hchars : ∀ cs : List Char, (ofChars cs).flatMap showPoint = cs := by
    intro cs
    induction cs with
    | nil => rfl
    | cons c cs ih => exact congrArg (c :: ·) ih
  rw [escaped, ofString, hchars, String.ofList_toList]

end Text

/-- A line without escape characters is printed as it is. -/
theorem printedLine_ofString {s : String} (h : '\x1b' ∉ s.toList) :
    printedLine (Text.ofString s) = s ++ "\n" := by
  have hstyle : CodePoint.char '\x1b' ∉ Text.ofString s := by
    intro hmem
    obtain ⟨c, hc, heq⟩ := List.mem_map.1 hmem
    exact h (CodePoint.char.inj heq ▸ hc)
  rw [printedLine, Text.dropStyles_eq_self hstyle, Text.escaped_ofString]

/-! ## Records -/

open Json

namespace ChunkRecord

theorem texts_injective : Function.Injective Json.texts := by
  intro ts ts' h
  exact List.map_injective_iff.2 (fun _ _ h => Json.str.inj h) (Json.arr.inj h)

/-- The JSON form of a record tells the record. -/
theorem wire_injective : Function.Injective ChunkRecord.wire := by
  intro r r' h
  simp only [wire, Json.obj.injEq, List.cons.injEq, Prod.mk.injEq, Json.str.injEq, true_and,
    and_true, texts_injective.eq_iff] at h
  obtain ⟨h₁, h₂, h₃, h₄, h₅, h₆, h₇⟩ := h
  cases r
  cases r'
  simp_all

end ChunkRecord

namespace MethodChunk

/-- The texts of the method hold characters only. -/
structure Scalar (c : MethodChunk) : Prop where
  className : c.className.IsScalar
  methodName : c.methodName.IsScalar
  returnType : c.returnType.IsScalar
  parameters : ∀ t ∈ c.parameters, t.IsScalar
  calledBy : ∀ t ∈ c.calledBy, t.IsScalar
  dependencies : ∀ t ∈ c.dependencies, t.IsScalar

theorem plain_str {t : Text} (h : t.IsScalar) (depth : Nat) : Plain depth (.str t) := by
  obtain ⟨cs, rfl⟩ := h.exists_chars
  exact .str cs

theorem plain_texts {ts : List Text} (h : ∀ t ∈ ts, t.IsScalar) : Plain 1 (.texts ts) := by
  refine .arr fun v hv => ?_
  obtain ⟨t, ht, rfl⟩ := List.mem_map.1 hv
  exact plain_str (h t ht) 0

theorem plain_wire {c : MethodChunk} (h : c.Scalar) : Plain 2 c.record.wire := by
  have hcode : (c.code : Text).IsScalar := Text.isScalar_ofString c.code
  have hnames : (["className", "methodName", "returnType", "parameters", "methodCode", "calledBy",
      "dependencies"].map Text.ofString).Nodup := by decide
  refine .obj ?_ ?_ hnames
  · simp only [record, List.forall_mem_cons, List.not_mem_nil, IsEmpty.forall_iff, implies_true,
      and_true]
    exact ⟨plain_str h.className 1, plain_str h.methodName 1, plain_str h.returnType 1,
      plain_texts h.parameters, plain_str hcode 1, plain_texts h.calledBy,
      plain_texts h.dependencies⟩
  · simp only [List.forall_mem_cons, List.not_mem_nil, IsEmpty.forall_iff, implies_true, and_true]
    exact ⟨⟨_, rfl⟩, ⟨_, rfl⟩, ⟨_, rfl⟩, ⟨_, rfl⟩, ⟨_, rfl⟩, ⟨_, rfl⟩, ⟨_, rfl⟩⟩

/-- What is given out about methods is carried without loss. -/
theorem plain_wireAll {cs : List MethodChunk} (h : ∀ c ∈ cs, c.Scalar) : Plain 3 (wireAll cs) := by
  refine .arr fun v hv => ?_
  obtain ⟨c, hc, rfl⟩ := List.mem_map.1 hv
  exact plain_wire (h c hc)

end MethodChunk

/-! ## The command -/

namespace Command

/-- What is printed about the methods of a repository. -/
def chunkText (r : ChunkResult) : String :=
  CommandReport.output { lines := chunkLines r }

theorem chunkText_eq {r : ChunkResult} (h : ∀ c ∈ r.chunks, c.Scalar) :
    chunkText r = (MethodChunk.wireAll r.chunks).renderIndented ++ "\n" := by
  have hplain := (MethodChunk.plain_wireAll h).plainText 0
  have hstyle : '\x1b' ∉ (MethodChunk.wireAll r.chunks).renderIndented.toList := by
    rw [renderIndented, String.toList_ofList]
    intro hmem
    exact absurd (isPlainText_iff.1 hplain _ hmem) (by decide)
  rw [chunkText, CommandReport.output, chunkLines, List.map_singleton,
    printedLine_ofString hstyle]
  simp

/-- The command prints what its run has found, and nothing else. -/
theorem answer_chunks {env : Environment} {o : QueryOptions} {settings : ScanSettings}
    (hsettings : settingsOf env o false = .ok settings) {r : ChunkResult}
    (hrun : (Run.chunks env settings).result = .ok r) :
    (answer env (.chunks o)).exitCode = 0 ∧ (answer env (.chunks o)).output = chunkText r := by
  have hprinted : (chunkLines r).all isPrinted = true := by
    simp [chunkLines, isPrinted, Text.ofString, Text.toChars?_ofChars]
  have houtcome : ∃ journal, outcome env (.chunks o) =
      { lines := chunkLines r, trace := (Run.chunks env settings).trace, journal := journal } := by
    rw [outcome, hsettings]
    dsimp only
    rw [reportOf, hrun]
    exact ⟨_, rfl⟩
  obtain ⟨journal, houtcome⟩ := houtcome
  rw [answer, houtcome, print, if_pos hprinted]
  exact ⟨rfl, rfl⟩

/-- **The printed text is ASCII and one JSON document, which is read as what is known of each
method, in order**, by a reader that takes three levels of nesting; so methods of which different
things are known are printed as different texts. -/
theorem chunks_printed (r : ChunkResult) (h : ∀ c ∈ r.chunks, c.Scalar) :
    (∀ env o settings, settingsOf env o false = .ok settings →
      (Run.chunks env settings).result = .ok r →
      (answer env (.chunks o)).exitCode = 0 ∧ (answer env (.chunks o)).output = chunkText r) ∧
    (∀ c ∈ (chunkText r).toList, c.toNat < 0x80) ∧
    (∀ depth, 3 ≤ depth → read depth (chunkText r) = .ok (.arr (r.chunks.map fun c => .obj [
      ("className", .str c.className),
      ("methodName", .str c.methodName),
      ("returnType", .str c.returnType),
      ("parameters", .arr (c.parameters.map .str)),
      ("methodCode", .str (Text.ofString c.code)),
      ("calledBy", .arr (c.calledBy.map .str)),
      ("dependencies", .arr (c.dependencies.map .str))]))) ∧
    ∀ r' : ChunkResult, (∀ c ∈ r'.chunks, c.Scalar) → chunkText r' = chunkText r →
      r'.chunks.map MethodChunk.record = r.chunks.map MethodChunk.record := by
  have hread : ∀ r : ChunkResult, (∀ c ∈ r.chunks, c.Scalar) →
      ∀ depth, 3 ≤ depth → read depth (chunkText r) = .ok (MethodChunk.wireAll r.chunks) := by
    intro r h depth hdepth
    rw [chunkText_eq h]
    exact (MethodChunk.plain_wireAll h).read_renderIndented hdepth (by simp [Reader.isGap])
  refine ⟨fun env o settings hsettings hrun => answer_chunks hsettings hrun, ?_, hread r h, ?_⟩
  · rw [chunkText_eq h, String.toList_append, renderIndented, String.toList_ofList]
    intro c hc
    obtain hc | hc := List.mem_append.1 hc
    · obtain rfl | hc := isPlainText_iff.1 ((MethodChunk.plain_wireAll h).plainText 0) c hc
      · decide
      · omega
    · rw [List.mem_singleton.1 hc]
      decide
  · intro r' h' htext
    have hwire : MethodChunk.wireAll r'.chunks = MethodChunk.wireAll r.chunks := by
      have hread' := hread r' h' 3 le_rfl
      rw [htext, hread r h 3 le_rfl] at hread'
      exact (Except.ok.inj hread').symm
    refine List.map_injective_iff.2 ChunkRecord.wire_injective ?_
    rw [List.map_map, List.map_map]
    exact Json.arr.inj hwire

/-- A method with quotes, control characters and characters beyond the basic plane in its texts,
and with lists of all lengths. -/
def sampleChunk : MethodChunk where
  className := "A\"\\"
  methodName := "né😀"
  returnType := "void"
  parameters := ["int a", "List<\x7f>"]
  code := "int né() \x7b\r\n\t// \x1b[1m\n\x7d"
  calledBy := ["B::g"]
  dependencies := []

theorem sampleChunk_scalar : sampleChunk.Scalar := by
  constructor <;> simp [sampleChunk, Text.isScalar_ofString]

/-- A run that has found the methods. -/
def resultOf (chunks : List MethodChunk) : ChunkResult where
  installation := ⟨.parse "/j", .parse "/j/plugins", .parse "/j/config_linux", .parse "/j/l.jar",
    "linux"⟩
  files := []
  chunks := chunks
  notices := []

/-- The text about one method, which is not the text about none. -/
theorem chunks_printed_sample :
    (∀ c ∈ (resultOf [sampleChunk]).chunks, c.Scalar) ∧
    (∀ c ∈ (resultOf []).chunks, c.Scalar) ∧
    (∀ c ∈ (chunkText (resultOf [sampleChunk])).toList, c.toNat < 0x80) ∧
    read 3 (chunkText (resultOf [sampleChunk])) = .ok (.arr [.obj [
      ("className", .str "A\"\\"),
      ("methodName", .str "né😀"),
      ("returnType", .str "void"),
      ("parameters", .arr [.str "int a", .str "List<\x7f>"]),
      ("methodCode", .str "int né() \x7b\r\n\t// \x1b[1m\n\x7d"),
      ("calledBy", .arr [.str "B::g"]),
      ("dependencies", .arr [])]]) ∧
    chunkText (resultOf []) ≠ chunkText (resultOf [sampleChunk]) := by
  have hsample : ∀ c ∈ (resultOf [sampleChunk]).chunks, c.Scalar := by
    simp [resultOf, sampleChunk_scalar]
  have hnone : ∀ c ∈ (resultOf []).chunks, c.Scalar := by
    simp [resultOf]
  obtain ⟨-, hascii, hread, hdistinct⟩ := chunks_printed (resultOf [sampleChunk]) hsample
  refine ⟨hsample, hnone, hascii, hread 3 le_rfl, fun htext => ?_⟩
  exact absurd (hdistinct (resultOf []) hnone htext) (by simp [resultOf])

end Command

end SymbolAtlas
