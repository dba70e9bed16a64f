import SymbolAtlas.Proofs.Symbols.AllOrNothing

/-!
# Two ways of decoding a hit

A hit of a search whose location has a range is decoded as a flat symbol, any other as a symbol of
the workspace. The two structures differ in their optional fields and in what a location may be, but
not in what becomes of them: both are the same function of the place that the location gives, and a
location with a range gives the same place to both. So it cannot be told which of the two was used,
except by the name that a failure gives to the structure.

* `Lsp.Decode.hitAt` — the node of a hit at a given place, with
  `Lsp.Decode.map_symbolInformation` and `Lsp.Decode.map_workspaceSymbol`;
* `Lsp.Decode.Ranged` — a hit whose location has a range;
* `Answer.plainNode` — a hit that is always decoded as a symbol of the workspace;
* `Failure.untyped` — a failure that does not tell the structure;
* `Answer.hit_decodings_agree` — the agreement for one hit, for a search and for flat symbols.
-/

namespace SymbolAtlas

namespace Lsp.Decode

variable {fields : Json.Object}

/-! ## One hit -/

/-- A field for which no value is refused is not refused. -/
theorem exists_optional {α : Type} (item : Decoder α) (h : ∀ v, ∃ a, item v = .ok a)
    (fields : Json.Object) (name : String) : ∃ a?, optional fields name item = pure a? := by
  unfold optional
  split
  · exact ⟨none, rfl⟩
  · exact ⟨none, rfl⟩
  · next v _ _ =>
    obtain ⟨a, ha⟩ := h v
    exact ⟨some a, by rw [ha]; rfl⟩

/-- The node of a hit at a place. -/
def hitAt (fields : Json.Object) (place : SymbolPlacement) : Except String SymbolNode := do
  let name ← required fields "name" text
  let kind ← required fields "kind" (coded SymbolKind.ofCode?)
  let _ ← optional fields "tags" symbolTags
  let container ← optional fields "containerName" text
  return { name := name, kind := .known kind, location := some place, detail := container,
           children := [], flat := true }

/-- The place of a flat symbol with the location. -/
def flatPlace (l : Location) : SymbolPlacement :=
  { uri := l.uri, range := some l.range }

/-- The place of a symbol of the workspace with the location. -/
def workspacePlace (p : SymbolPlace) : SymbolPlacement :=
  { uri := p.uri, range := p.range? }

/-- A flat symbol is a hit at its location. Whether it is deprecated is read but not kept. -/
theorem map_symbolInformation (fields : Json.Object) :
    SymbolNode.ofInformation <$> symbolInformation (.obj fields) =
      (flatPlace <$> required fields "location" location) >>= hitAt fields := by
  have hobject : object (.obj fields) = pure fields := rfl
  obtain ⟨deprecated, hdeprecated⟩ :=
    exists_optional truth (fun v => ⟨v.truthy, rfl⟩) fields "deprecated"
  simp only [symbolInformation, hobject, hdeprecated, pure_bind, map_bind, map_pure, bind_map_left]
  rfl

/-- A symbol of the workspace is a hit at its location. Its data is read but not kept. -/
theorem map_workspaceSymbol (fields : Json.Object) :
    SymbolNode.ofWorkspaceSymbol <$> workspaceSymbol (.obj fields) =
      (workspacePlace <$> required fields "location" symbolPlace) >>= hitAt fields := by
  have hobject : object (.obj fields) = pure fields := rfl
  obtain ⟨data, hdata⟩ := exists_optional any (fun v => ⟨v, rfl⟩) fields "data"
  simp only [workspaceSymbol, hobject, hdata, pure_bind, map_bind, map_pure, bind_map_left]
  rfl

/-- The location of a hit is an object with a range, of whatever form. -/
def Ranged (fields : Json.Object) : Prop :=
  ∃ place : Json.Object, Fields.get? fields "location" = some (.obj place) ∧
    Fields.has place "range" = true

/-- A location with a range gives the same place to both structures. -/
theorem Ranged.place_eq (h : Ranged fields) :
    flatPlace <$> required fields "location" location =
      workspacePlace <$> required fields "location" symbolPlace := by
  obtain ⟨place, hplace, hrange⟩ := h
  have hfull : symbolPlace (.obj place) = SymbolPlace.full <$> location (.obj place) := by
    change (if Fields.has place "range" then _ else _) = _
    rw [if_pos hrange]
  rw [required, required, hplace]
  dsimp only
  rw [hfull]
  cases location (.obj place) <;> rfl

theorem Ranged.decodings_eq (h : Ranged fields) :
    SymbolNode.ofInformation <$> symbolInformation (.obj fields) =
      SymbolNode.ofWorkspaceSymbol <$> workspaceSymbol (.obj fields) := by
  rw [map_symbolInformation, map_workspaceSymbol, h.place_eq]

/-- The test by which one of the two structures is chosen. -/
theorem ranged_iff :
    Ranged fields ↔ ((Json.fieldOrNull fields "location").field? "range").isSome = true := by
  unfold Ranged Json.fieldOrNull
  cases Fields.get? fields "location" with
  | none => simp [Json.field?]
  | some v => cases v <;> simp [Json.field?, Fields.has]

/-- Only a location with a range is decoded as one. -/
theorem ranged_of_symbolInformation {s : SymbolInformation}
    (h : symbolInformation (.obj fields) = .ok s) : Ranged fields := by
  obtain ⟨_, ⟨⟩, h⟩ := bind_eq_ok.1 h
  obtain ⟨l, hl, -⟩ := bind_eq_ok.1 h
  unfold required at hl
  split at hl
  · next v hv =>
    obtain ⟨place, hplace, hl⟩ := bind_eq_ok.1 hl
    obtain ⟨uri, -, hl⟩ := bind_eq_ok.1 hl
    obtain ⟨range, hrange, -⟩ := bind_eq_ok.1 hl
    unfold required at hrange
    split at hrange
    · next r hr =>
      cases v with
      | obj fs =>
        cases hplace
        exact ⟨_, hv, by simp [Fields.has, hr]⟩
      | _ => cases hplace
    · cases hrange
  · cases hl

end Lsp.Decode

/-! ## Whole answers -/

/-- What is wrong with a payload, without the structure that it should have. -/
def Malformed.untyped (cause : Malformed) : Malformed :=
  { cause with typeName := "" }

/-- The failure without the structure that something should have. -/
def Failure.untyped : Failure → Failure
  | .malformedItem item index cause => .malformedItem item index cause.untyped
  | f => f

/-- A change of the errors is a change of the error of each step. -/
theorem mapError_eachFrom {α β ε ε' : Type} (g : ε → ε') (step : Nat → α → Except ε β)
    (number : Nat) (as : List α) :
    (eachFrom step number as).mapError g =
      eachFrom (fun number a => (step number a).mapError g) number as := by
  induction as generalizing number with
  | nil => rfl
  | cons a as ih =>
    rw [eachFrom, eachFrom, ← ih]
    cases step number a with
    | error e => rfl
    | ok b => cases eachFrom step (number + 1) as <;> rfl

namespace Answer

open Lsp

/-- The node of a hit that is decoded as a symbol of the workspace, whatever its location is. -/
def plainNode (fields : Json.Object) : Except Malformed SymbolNode :=
  (Decode.payload "WorkspaceSymbol" Decode.workspaceSymbol (.obj fields)).map
    SymbolNode.ofWorkspaceSymbol

theorem mapError_payload {α β : Type} (typeName : String) (item : Decoder α) (f : α → β)
    (v : Json) :
    ((Decode.payload typeName item v).map f).mapError Malformed.untyped =
      (f <$> item v).mapError fun detail => ⟨"", detail⟩ := by
  unfold Decode.payload
  cases item v <;> rfl

/-- A hit is decoded as if there were only one structure. -/
theorem mapError_workspaceNode (fields : Json.Object) :
    (workspaceNode fields).mapError Malformed.untyped =
      (plainNode fields).mapError Malformed.untyped := by
  unfold workspaceNode plainNode
  split
  · next hrange =>
    have hranged := Decode.ranged_iff.2 hrange
    rw [mapError_payload, mapError_payload, hranged.decodings_eq]
  · rfl

theorem mapError_decodeAt {α : Type} (item : Item) (decode : Json.Object → Except Malformed α)
    (index : Nat) (fields : Json.Object) :
    (decodeAt item decode index fields).mapError Failure.untyped =
      ((decode fields).mapError Malformed.untyped).mapError (.malformedItem item index) := by
  unfold decodeAt
  cases decode fields <;> rfl

/-- Ways of decoding elements that agree up to the structure lead to answers that do. -/
theorem mapError_decodeAll {α : Type} {item : Item}
    {decode decode' : Json.Object → Except Malformed α}
    (h : ∀ fields, (decode fields).mapError Malformed.untyped =
      (decode' fields).mapError Malformed.untyped) (v : Json) :
    (decodeAll item decode v).mapError Failure.untyped =
      (decodeAll item decode' v).mapError Failure.untyped := by
  rw [decodeAll, decodeAll]
  cases elements item v with
  | error e => rfl
  | ok fs =>
    dsimp only
    simp only [decodeFrom_eq_eachFrom, mapError_eachFrom, mapError_decodeAt, h]

/-- A flat symbol of a document is the same node when it is looked at as a hit. -/
theorem workspaceNode_of_documentNode {uri : Text} {fields : Json.Object} {n : SymbolNode}
    (hlocation : Fields.has fields "location" = true) (h : documentNode uri fields = .ok n) :
    workspaceNode fields = .ok n := by
  rw [documentNode, if_pos hlocation] at h
  obtain ⟨s, hs, rfl⟩ := map_eq_ok.1 h
  have hranged := Decode.ranged_of_symbolInformation (payload_eq_ok.1 hs)
  rw [workspaceNode, if_pos (Decode.ranged_iff.1 hranged), hs]
  rfl

/-- Every element of the answer that is an object has a location. -/
def AllLocated (v : Json) : Prop :=
  ∀ vs, v = .arr vs → ∀ w ∈ vs, ∀ fields, w = .obj fields → Fields.has fields "location" = true

theorem workspaceSymbols_of_documentSymbols {uri : Text} {v : Json} {ns : List SymbolNode}
    (hlocated : AllLocated v) (h : documentSymbols uri v = .ok ns) :
    workspaceSymbols v = .ok ns := by
  cases v with
  | null => exact h
  | arr vs =>
    have hentries := (List.forall₂_and_left vs ns).2 ⟨hlocated vs rfl, decodeAll_eq_ok.1 h⟩
    refine decodeAll_eq_ok.2 (hentries.imp ?_)
    rintro w n ⟨hlocation, fields, rfl, hn⟩
    exact ⟨fields, rfl, workspaceNode_of_documentNode (hlocation fields rfl) hn⟩
  | _ => cases h

/-- **The two ways of decoding a hit agree.** If the location of a hit is an object with a range, it
makes no difference whether the hit is decoded as a flat symbol or as a symbol of the workspace:
either both fail, with the same words but for the structure, or both give the same node. So a search
gives what it would if every hit were decoded as a symbol of the workspace, up to the structure that
a failure tells. Flat symbols that are read for a document are read as the same nodes by a
search. -/
theorem hit_decodings_agree :
    (∀ fields, Decode.Ranged fields →
      SymbolNode.ofInformation <$> Decode.symbolInformation (.obj fields) =
        SymbolNode.ofWorkspaceSymbol <$> Decode.workspaceSymbol (.obj fields)) ∧
    (∀ v, (workspaceSymbols v).mapError Failure.untyped =
      (decodeAll .workspaceSymbol plainNode v).mapError Failure.untyped) ∧
    ∀ uri v ns, AllLocated v → documentSymbols uri v = .ok ns → workspaceSymbols v = .ok ns :=
  ⟨fun _ => Decode.Ranged.decodings_eq, mapError_decodeAll mapError_workspaceNode,
    fun _ _ _ => workspaceSymbols_of_documentSymbols⟩

/-- The fields of a hit hardly any of which is what it should be, but all of which can be read. -/
def looseHit : Json.Object :=
  [("name", .int 5), ("kind", .bool true), ("deprecated", .arr []), ("tags", .obj []),
    ("data", .bool false), ("containerName", .float .nan),
    ("location", .obj [("uri", .null), ("range", twoLinesJson)])]

/-- For a search and for a document alike, the hit is a file. -/
theorem hit_decodings_agree_loose :
    Decode.Ranged looseHit ∧ AllLocated (.arr [.obj looseHit]) ∧
      SymbolNode.ofInformation <$> Decode.symbolInformation (.obj looseHit) =
        SymbolNode.ofWorkspaceSymbol <$> Decode.workspaceSymbol (.obj looseHit) ∧
      ∃ n, n.kind = .known .file ∧
        documentSymbols "file:///A.java" (.arr [.obj looseHit]) = .ok [n] ∧
        workspaceSymbols (.arr [.obj looseHit]) = .ok [n] := by
  obtain ⟨hagree, -, hflat⟩ := hit_decodings_agree
  have hranged : Decode.Ranged looseHit := ⟨_, rfl, rfl⟩
  have hlocated : AllLocated (.arr [.obj looseHit]) := by
    rintro vs ⟨⟩ w hw fields rfl
    cases List.mem_singleton.1 hw
    rfl
  refine ⟨hranged, hlocated, hagree looseHit hranged, _, rfl, rfl, ?_⟩
  exact hflat "file:///A.java" _ _ hlocated rfl

end Answer

end SymbolAtlas
