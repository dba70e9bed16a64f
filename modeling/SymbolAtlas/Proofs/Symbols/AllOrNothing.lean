import SymbolAtlas.Proofs.Lsp.Nested
import SymbolAtlas.Proofs.Symbols.Answers
import SymbolAtlas.Proofs.Symbols.Trees

/-!
# Answers are read whole or not at all

An answer is read if all its elements are, and then there is one entry for each of them, in order.
Otherwise it fails, and the failure names one element: the first that is no object, and if all are
objects, the first that does not decode.

* `Answer.AllOrNothing` — what an answer comes to, by its elements, with
  `Answer.allOrNothing_decodeAll`;
* `Answer.DocumentEntry`, `Answer.WorkspaceEntry` — the entries of elements;
* `Answer.read_whole_or_not` — the whole, for the three kinds of answers.
-/

namespace SymbolAtlas.Answer

open Lsp

section Reading

variable {α : Type} {item : Item} {decode : Json.Object → Except Malformed α}

/-! ## Whole answers -/

/-- The entry of an element: the element is an object that decodes to it. -/
def EntryBy (decode : Json.Object → Except Malformed α) (v : Json) (a : α) : Prop :=
  ∃ fields, v = .obj fields ∧ decode fields = .ok a

/-- What an answer comes to, `Entry` being what its elements are read as. -/
structure AllOrNothing (item : Item) (Entry : Json → α → Prop) (v : Json)
    (outcome : Except Failure (List α)) : Prop where
  /-- No answer is an empty one. -/
  null : v = .null → outcome = .ok []
  /-- An answer that is no list is refused. -/
  noList : v ≠ .null → (∀ vs, v ≠ .arr vs) → outcome = .error (.unexpectedAnswer item v.kind)
  /-- What is read from a list is an entry for each element, in order. -/
  entries : ∀ vs, v = .arr vs → ∀ as, outcome = .ok as ↔ List.Forall₂ Entry vs as
  /-- A list is read just if every element has an entry. -/
  whole : ∀ vs, v = .arr vs → ((∃ as, outcome = .ok as) ↔ ∀ w ∈ vs, ∃ a, Entry w a)
  /-- The first element that is no object is named if there is one. -/
  notObject : ∀ vs, v = .arr vs → ∀ i,
    outcome = .error (.notAnObject item i) ↔ First (fun w => ¬ IsObject w) vs i
  /-- Else it is the first element that has no entry. -/
  malformed : ∀ vs, v = .arr vs → ∀ i,
    (∃ cause, outcome = .error (.malformedItem item i cause)) ↔
      (∀ w ∈ vs, IsObject w) ∧ First (Lacks Entry) vs i
  /-- All failures are failures of a query. -/
  query : ∀ f, outcome = .error f → f.kind = .query

theorem forall₂_entryBy {vs : List Json} {as : List α} :
    List.Forall₂ (EntryBy decode) vs as ↔
      ∃ fs, vs = fs.map Json.obj ∧ List.Forall₂ (fun fields a => decode fields = .ok a) fs as := by
  constructor
  · intro h
    induction h with
    | nil => exact ⟨[], rfl, .nil⟩
    | cons hentry _ ih =>
      obtain ⟨fields, rfl, hdecode⟩ := hentry
      obtain ⟨fs, rfl, hfs⟩ := ih
      exact ⟨fields :: fs, rfl, .cons hdecode hfs⟩
  · rintro ⟨fs, rfl, h⟩
    rw [List.forall₂_map_left_iff]
    exact h.imp fun fields a ha => ⟨fields, rfl, ha⟩

theorem exists_map_obj {vs : List Json} (h : ∀ w ∈ vs, IsObject w) :
    ∃ fs : List Json.Object, vs = fs.map Json.obj := by
  obtain ⟨fs, hfs⟩ := exists_forall₂_iff.2 h
  rw [← List.forall₂_map_right_iff, List.forall₂_eq_eq_eq] at hfs
  exact ⟨fs, hfs⟩

theorem lacks_entryBy {fields : Json.Object} :
    Lacks (EntryBy decode) (.obj fields) ↔
      Lacks (fun fields a => decode fields = .ok a) fields := by
  simp [Lacks, EntryBy]

theorem decodeAll_eq_ok {vs : List Json} {as : List α} :
    decodeAll item decode (.arr vs) = .ok as ↔ List.Forall₂ (EntryBy decode) vs as := by
  rw [decodeAll_eq_bind, bind_eq_ok, forall₂_entryBy]
  simp only [elements, objectsFrom_eq_ok, decodeFrom_eq_ok]

theorem decodeAll_eq_notAnObject {vs : List Json} {i : Nat} :
    decodeAll item decode (.arr vs) = .error (.notAnObject item i) ↔
      First (fun w => ¬ IsObject w) vs i := by
  rw [decodeAll_eq_bind, bind_eq_error]
  simp [elements, objectsFrom_eq_error, decodeFrom_eq_error]

theorem decodeAll_eq_malformed {vs : List Json} {i : Nat} :
    (∃ cause, decodeAll item decode (.arr vs) = .error (.malformedItem item i cause)) ↔
      (∀ w ∈ vs, IsObject w) ∧ First (Lacks (EntryBy decode)) vs i := by
  simp only [decodeAll_eq_bind, bind_eq_error, elements, objectsFrom_eq_error, objectsFrom_eq_ok,
    decodeFrom_eq_error]
  constructor
  · -- had the first pass failed, the failure would be another
    rintro ⟨cause, ⟨j, -, ⟨⟩⟩ | ⟨fs, rfl, j, hj, fields, cause', -, -, ⟨⟩⟩⟩
    refine ⟨by simp [IsObject], ?_⟩
    simpa only [first_map, lacks_entryBy] using hj
  · rintro ⟨hobjects, hi⟩
    obtain ⟨fs, rfl⟩ := exists_map_obj hobjects
    simp only [first_map, lacks_entryBy] at hi
    obtain ⟨fields, hfields, hlacks⟩ := hi.holds
    cases hdecode : decode fields with
    | ok a => exact absurd ⟨a, hdecode⟩ hlacks
    | error cause => exact ⟨cause, .inr ⟨fs, rfl, i, hi, fields, cause, hfields, hdecode, rfl⟩⟩

theorem allOrNothing_decodeAll (item : Item) (decode : Json.Object → Except Malformed α)
    (v : Json) : AllOrNothing item (EntryBy decode) v (decodeAll item decode v) where
  null := by
    rintro rfl
    rfl
  noList := by
    intro hnull hlist
    cases v with
    | null => exact absurd rfl hnull
    | arr vs => exact absurd rfl (hlist vs)
    | _ => rfl
  entries := by
    rintro vs rfl as
    exact decodeAll_eq_ok
  whole := by
    rintro vs rfl
    simp only [decodeAll_eq_ok, exists_forall₂_iff]
  notObject := by
    rintro vs rfl i
    exact decodeAll_eq_notAnObject
  malformed := by
    rintro vs rfl i
    exact decodeAll_eq_malformed
  query := fun f => kind_of_decodeAll

/-- What the elements are read as matters for the elements alone. -/
theorem AllOrNothing.congr {Entry Entry' : Json → α → Prop} {v : Json}
    {outcome : Except Failure (List α)} (h : AllOrNothing item Entry v outcome)
    (hentry : ∀ vs, v = .arr vs → ∀ w ∈ vs, ∀ a, Entry w a ↔ Entry' w a) :
    AllOrNothing item Entry' v outcome where
  null := h.null
  noList := h.noList
  entries := by
    intro vs hvs as
    rw [h.entries vs hvs]
    exact forall₂_congr_left (hentry vs hvs)
  whole := by
    intro vs hvs
    rw [h.whole vs hvs]
    exact forall₂_congr fun w hw => exists_congr (hentry vs hvs w hw)
  notObject := h.notObject
  malformed := by
    intro vs hvs i
    rw [h.malformed vs hvs]
    exact and_congr_right' (first_congr fun w hw => not_congr (exists_congr (hentry vs hvs w hw)))
  query := h.query

end Reading

/-! ## The three kinds of answers -/

/-- An element of a document's symbols and its node: a flat symbol if it has a location, else a
nested one, to whatever depth. -/
inductive DocumentEntry (uri : Text) : Json → SymbolNode → Prop
  | flat {fields : Json.Object} {s : SymbolInformation}
      (hlocation : Fields.has fields "location" = true)
      (h : Decode.symbolInformation (.obj fields) = .ok s) :
      DocumentEntry uri (.obj fields) (.ofInformation s)
  | nested {fields : Json.Object} {s : DocumentSymbol}
      (hlocation : Fields.has fields "location" = false) (h : Decode.Reads (.obj fields) s) :
      DocumentEntry uri (.obj fields) (.tree uri s)

/-- A hit and its node: a flat symbol if its location has a range, else a symbol of the
workspace. -/
inductive WorkspaceEntry : Json → SymbolNode → Prop
  | flat {fields : Json.Object} {s : SymbolInformation}
      (hrange : ((Json.fieldOrNull fields "location").field? "range").isSome = true)
      (h : Decode.symbolInformation (.obj fields) = .ok s) :
      WorkspaceEntry (.obj fields) (.ofInformation s)
  | bare {fields : Json.Object} {s : WorkspaceSymbol}
      (hrange : ((Json.fieldOrNull fields "location").field? "range").isSome = false)
      (h : Decode.workspaceSymbol (.obj fields) = .ok s) :
      WorkspaceEntry (.obj fields) (.ofWorkspaceSymbol s)

theorem payload_eq_ok {α : Type} {typeName : String} {item : Decoder α} {v : Json} {a : α} :
    Decode.payload typeName item v = .ok a ↔ item v = .ok a := by
  unfold Decode.payload
  split <;> simp [*]

theorem entryBy_documentNode {uri : Text} {v : Json} (h : v.nesting ≤ 2 * Decode.maxDepth)
    (n : SymbolNode) : EntryBy (documentNode uri) v n ↔ DocumentEntry uri v n := by
  constructor
  · rintro ⟨fields, rfl, hn⟩
    unfold documentNode at hn
    split at hn
    · next hlocation =>
      obtain ⟨s, hs, rfl⟩ := map_eq_ok.1 hn
      exact .flat hlocation (payload_eq_ok.1 hs)
    · next hlocation =>
      obtain ⟨s, hs, rfl⟩ := map_eq_ok.1 hn
      rw [SymbolNode.ofDocumentSymbol_eq_tree]
      exact .nested (by simpa using hlocation)
        ((Decode.documentSymbolTo_eq_ok_iff h).1 (payload_eq_ok.1 hs))
  · rintro (⟨hlocation, hs⟩ | ⟨hlocation, hs⟩)
    · refine ⟨_, rfl, ?_⟩
      rw [documentNode, if_pos hlocation, map_eq_ok]
      exact ⟨_, payload_eq_ok.2 hs, rfl⟩
    · refine ⟨_, rfl, ?_⟩
      rw [documentNode, if_neg (by simp [hlocation]), map_eq_ok]
      exact ⟨_, payload_eq_ok.2 ((Decode.documentSymbolTo_eq_ok_iff h).2 hs),
        SymbolNode.ofDocumentSymbol_eq_tree _ _⟩

theorem entryBy_workspaceNode (v : Json) (n : SymbolNode) :
    EntryBy workspaceNode v n ↔ WorkspaceEntry v n := by
  constructor
  · rintro ⟨fields, rfl, hn⟩
    unfold workspaceNode at hn
    split at hn
    · next hrange =>
      obtain ⟨s, hs, rfl⟩ := map_eq_ok.1 hn
      exact .flat hrange (payload_eq_ok.1 hs)
    · next hrange =>
      obtain ⟨s, hs, rfl⟩ := map_eq_ok.1 hn
      exact .bare (by simpa using hrange) (payload_eq_ok.1 hs)
  · rintro (⟨hrange, hs⟩ | ⟨hrange, hs⟩)
    · refine ⟨_, rfl, ?_⟩
      rw [workspaceNode, if_pos hrange, map_eq_ok]
      exact ⟨_, payload_eq_ok.2 hs, rfl⟩
    · refine ⟨_, rfl, ?_⟩
      rw [workspaceNode, if_neg (by simp [hrange]), map_eq_ok]
      exact ⟨_, payload_eq_ok.2 hs, rfl⟩

/-- What is no object is no location. -/
theorem entryBy_location (v : Json) (l : Location) :
    EntryBy (fun fields => Decode.payload "Location" Decode.location (.obj fields)) v l ↔
      Decode.location v = .ok l := by
  constructor
  · rintro ⟨fields, rfl, hl⟩
    exact payload_eq_ok.1 hl
  · intro hl
    obtain ⟨fields, hobject, -⟩ := bind_eq_ok.1 hl
    cases v with
    | obj fields => exact ⟨fields, rfl, payload_eq_ok.2 hl⟩
    | _ => cases hobject

/-! ## Words -/

theorem ofString_append (s t : String) :
    Text.ofString (s ++ t) = Text.ofString s ++ Text.ofString t := by
  simp [Text.ofString, Text.ofChars]

/-- All the words hold their number in the same place, and what is around it is the same in all. -/
def Counts (words : Nat → Text) : Prop :=
  ∃ front back : Text, ∀ i, words i = front ++ Text.ofString (toString i) ++ back

theorem counts_string (front back : String) (rest : Text) :
    Counts fun i => Text.ofString (front ++ toString i ++ back) ++ rest := by
  refine ⟨front, (back : Text) ++ rest, fun i => ?_⟩
  simp only [ofString_append, List.append_assoc]

theorem Counts.append {words : Nat → Text} (h : Counts words) (rest : Text) :
    Counts fun i => words i ++ rest := by
  obtain ⟨front, back, h⟩ := h
  exact ⟨front, back ++ rest, fun i => by simp only [h, List.append_assoc]⟩

theorem Counts.prepend {words : Nat → Text} (h : Counts words) (start : Text) :
    Counts fun i => start ++ words i := by
  obtain ⟨front, back, h⟩ := h
  exact ⟨start ++ front, back, fun i => by simp only [h, List.append_assoc]⟩

theorem counts_element (item : Item) : Counts item.element := by
  cases item with
  | symbol uri => exact counts_string "symbol #" " for " uri
  | workspaceSymbol =>
    refine ⟨"workspace symbol #", [], fun i => ?_⟩
    rw [List.append_nil, ← ofString_append]
    rfl
  | location what => exact counts_string "location #" " of " what

/-! ## The whole -/

/-- **An answer is read whole or not at all, and the right element is blamed.** This is so for the
symbols of a document, the hits of a search and locations. A document's symbol is one at every depth
or does not decode; symbols in one another to the fiftieth level are nested less than the bound. The
words for a failure say which element it blames. -/
theorem read_whole_or_not (v : Json) (h : v.nesting ≤ 128) :
    (∀ uri, AllOrNothing (.symbol uri) (DocumentEntry uri) v (documentSymbols uri v)) ∧
    AllOrNothing .workspaceSymbol WorkspaceEntry v (workspaceSymbols v) ∧
    (∀ what, AllOrNothing (.location what) (fun w l => Decode.location w = .ok l) v
      (locations what v)) ∧
    (∀ item, Counts fun i => (Failure.notAnObject item i).message) ∧
    ∀ item cause, Counts fun i => (Failure.malformedItem item i cause).message := by
  refine ⟨fun uri => ?_, ?_, fun what => ?_, fun item => ?_, fun item cause => ?_⟩
  · refine (allOrNothing_decodeAll _ _ v).congr ?_
    rintro vs rfl w hw n
    refine entryBy_documentNode ?_ n
    have hnesting := Json.nesting_lt_of_mem hw
    rw [Decode.maxDepth]
    omega
  · exact (allOrNothing_decodeAll _ _ v).congr fun vs _ w _ => entryBy_workspaceNode w
  · exact (allOrNothing_decodeAll _ _ v).congr fun vs _ w _ => entryBy_location w
  · exact (counts_string "Item #" " of " item.answer).append _
  · exact ((counts_element item).prepend _).append _

/-- Two lines of a document. -/
def twoLines : Lsp.Range :=
  ⟨⟨0, 0⟩, ⟨1, 0⟩⟩

/-- The two lines as a value. -/
def twoLinesJson : Json :=
  .obj [("start", .obj [("line", .int 0), ("character", .int 0)]),
    ("end", .obj [("line", .int 1), ("character", .int 0)])]

/-- The fields of a class with some symbols in it. -/
def classAround (children : List Json) : Json.Object :=
  [("name", .str "A"), ("kind", .int 5), ("range", twoLinesJson), ("selectionRange", twoLinesJson),
    ("children", .arr children)]

/-- The class itself. -/
def classOf (children : List DocumentSymbol) : DocumentSymbol :=
  { name := "A", kind := .classKind, range := twoLines, selectionRange := twoLines, detail := none,
    tags := none, deprecated := none, children := some children }

theorem ownFields_classAround (children : List Json) (inside : List DocumentSymbol) :
    Decode.OwnFields (classAround children) (classOf inside) :=
  ⟨rfl, rfl, rfl, rfl, rfl, rfl, rfl⟩

/-- A class in a class. -/
def wholeClass : Json :=
  .obj (classAround [.obj (classAround [])])

/-- A class in a class, and in that something without a name. -/
def brokenClass : Json :=
  .obj (classAround [.obj (classAround [.obj []])])

theorem documentEntry_wholeClass :
    DocumentEntry "file:///A.java" wholeClass
      (.tree "file:///A.java" (classOf [classOf []])) := by
  have hinner : Decode.Reads (.obj (classAround [])) (classOf []) :=
    .around (ownFields_classAround _ _) rfl rfl rfl .nil
  exact .nested rfl (.around (ownFields_classAround _ _) rfl rfl rfl (.cons hinner .nil))

theorem lacks_brokenClass : Lacks (DocumentEntry "file:///A.java") brokenClass := by
  rintro ⟨n, ⟨hlocation, -⟩ | ⟨-, hreads⟩⟩
  · cases hlocation
  · obtain ⟨_, hinner⟩ := hreads.inside rfl rfl (List.mem_singleton.2 rfl)
    obtain ⟨_, hnameless⟩ := hinner.inside rfl rfl (List.mem_singleton.2 rfl)
    cases hnameless with
    | alone own => cases own.name
    | around own => cases own.name

/-- In a list with the broken class in the middle it is the one named, until something that is no
object comes behind it. -/
theorem read_whole_or_not_sample :
    (Json.arr [wholeClass, brokenClass, wholeClass]).nesting ≤ 128 ∧
      (∃ cause, documentSymbols "file:///A.java" (.arr [wholeClass, brokenClass, wholeClass]) =
        .error (.malformedItem (.symbol "file:///A.java") 1 cause)) ∧
      documentSymbols "file:///A.java" (.arr [wholeClass, brokenClass, .int 3]) =
        .error (.notAnObject (.symbol "file:///A.java") 2) ∧
      documentSymbols "file:///A.java" (.arr [wholeClass, wholeClass]) =
        .ok [.tree "file:///A.java" (classOf [classOf []]),
          .tree "file:///A.java" (classOf [classOf []])] := by
  have hmiddle : (Json.arr [wholeClass, brokenClass, wholeClass]).nesting ≤ 128 := by decide
  have hwhole := documentEntry_wholeClass
  refine ⟨hmiddle, ?_, ?_, ?_⟩
  · obtain ⟨hsymbols, -⟩ := read_whole_or_not _ hmiddle
    refine ((hsymbols _).malformed _ rfl 1).2 ⟨?_, ?_⟩
    · simp [IsObject, wholeClass, brokenClass]
    · rw [first_cons_succ, first_cons_zero]
      exact ⟨not_not_intro ⟨_, hwhole⟩, lacks_brokenClass⟩
  · obtain ⟨hsymbols, -⟩ := read_whole_or_not (.arr [wholeClass, brokenClass, .int 3]) (by decide)
    refine ((hsymbols _).notObject _ rfl 2).2 ?_
    simp [first_cons_succ, first_cons_zero, IsObject, wholeClass, brokenClass]
  · obtain ⟨hsymbols, -⟩ := read_whole_or_not (.arr [wholeClass, wholeClass]) (by decide)
    exact ((hsymbols _).entries _ rfl _).2 (.cons hwhole (.cons hwhole .nil))

end SymbolAtlas.Answer
