import Mathlib.Data.List.Basic
import SymbolAtlas.Chunks.Extract
import SymbolAtlas.Proofs.Symbols.Occurrences

/-!
# Methods along the walk

The methods of a document are collected in the order in which its symbols are shown. A method
belongs to the nearest type around it, however many symbols of other kinds stand between, and only
if there is one; the others are reported.

* `SymbolNode.Occurrence.nearestType?` — the nearest type around a symbol;
* `MethodChunk.findings_eq_filterMap` — what is found, by the occurrences of symbols;
* `MethodChunk.extract_along_walk` — the methods and the reports.
-/

namespace SymbolAtlas

/-- The nearest type around a symbol. -/
def SymbolNode.Occurrence.nearestType? (o : SymbolNode.Occurrence) : Option SymbolNode :=
  o.around.find? fun n => MethodChunk.isTypeKind n.kind

namespace MethodChunk

open SymbolNode

variable {lines : List String}

/-- The name of the nearest type among symbols that are around one another. -/
def enclosingName (around : List SymbolNode) : Option Text :=
  (around.find? fun n => isTypeKind n.kind).map SymbolNode.name

/-- The types on the way are remembered by the name of the last one. -/
theorem enclosingName_cons (around : List SymbolNode) (n : SymbolNode) :
    enclosingName (n :: around) = enclosingFor (enclosingName around) n := by
  by_cases hn : isTypeKind n.kind = true
  · simp [enclosingName, enclosingFor, hn]
  · simp [enclosingName, enclosingFor, hn]

theorem findingsStack_eq_stackWalk (fuel : Nat) (stack : List (Option Text × SymbolNode)) :
    findingsStack lines fuel stack =
      stackWalk enclosingFor (fun e n => visit lines (enclosingFor e n) n) fuel stack := by
  induction fuel generalizing stack with
  | zero => rfl
  | succ fuel ih =>
    cases stack with
    | nil => rfl
    | cons e stack => rw [findingsStack, ih, stackWalk]

theorem code_eq_of_is {k : NodeKind} {other : Lsp.SymbolKind} (h : k.is other = true) :
    k.code = (other.code : Int) :=
  eq_of_beq h

/-- A method is no type, however its kind is written. -/
theorem isTypeKind_of_method {k : NodeKind} (h : k.is .method = true) : isTypeKind k = false := by
  simp [isTypeKind, NodeKind.is, code_eq_of_is h, Lsp.SymbolKind.code]

/-- What an occurrence of a symbol contributes. -/
def finding? (lines : List String) (o : Occurrence) : Option Finding :=
  if o.node.kind.is .method then
    match o.nearestType? with
    | some t => some (.chunk (ofNode lines t.name o.node))
    | none => some (.orphan o.node.name)
  else none

/-- The type around a method is looked for among the symbols around it alone. -/
theorem visit_eq_toList (o : Occurrence) :
    visit lines (enclosingFor (enclosingName o.around) o.node) o.node =
      (finding? lines o).toList := by
  unfold visit finding?
  split
  · next hmethod =>
    have hinner : enclosingFor (enclosingName o.around) o.node =
        o.nearestType?.map SymbolNode.name := by
      rw [enclosingFor, isTypeKind_of_method hmethod]
      rfl
    rw [hinner]
    cases o.nearestType? with
    | none => rfl
    | some t => rfl
  · rfl

theorem findings_eq_filterMap (ns : List SymbolNode) (text : String) :
    findings ns text = (occurrences ns).filterMap (finding? (Text.linesOf text)) := by
  have h := stackWalk_forest enclosingFor
    (fun e n => visit (Text.linesOf text) (enclosingFor e n) n) enclosingName
    enclosingName_cons ns
  simp only [visit_eq_toList] at h
  rw [findings, findingsStack_eq_stackWalk, List.filterMap_eq_flatMap_toList]
  exact h

/-! ## The whole -/

/-- **The methods are collected along the walk, each under the nearest type around it.** The walk
meets the occurrences of symbols in the order of the plain recursion. There is a chunk for each
method that has a type around it, in that order, with the name of the nearest one, and a warning for
each method that has none. -/
theorem extract_along_walk (ns : List SymbolNode) (text : String) :
    (∀ around n, occurrencesIn around n =
      ⟨around, n⟩ :: n.children.flatMap (occurrencesIn (n :: around))) ∧
    occurrences ns = ns.flatMap (occurrencesIn []) ∧
    walk ns = (occurrences ns).map (fun o => (o.around.length, o.node)) ∧
    extract ns text = (occurrences ns).filterMap (fun o =>
      if o.node.kind.is .method then
        o.nearestType?.map fun t =>
          { className := t.name, methodName := o.node.name,
            returnType := (Signature.ofDetail o.node.detail).returnType,
            parameters := (Signature.ofDetail o.node.detail).parameters,
            code := sourceSlice (Text.linesOf text) o.node, location := o.node.location }
      else none) ∧
    orphanEntries ns text =
      ((occurrences ns).filter fun o => o.node.kind.is .method && o.nearestType?.isNone).map
        fun o => { level := .warning, event := "chunks.method_without_type",
                   fields := [("method", .str o.node.name)] } := by
  refine ⟨occurrencesIn_eq, occurrencesInAll_eq_flatMap [] ns, walk_eq_map_occurrences ns, ?_, ?_⟩
  · rw [extract, findings_eq_filterMap, List.filterMap_filterMap]
    refine List.filterMap_congr fun o _ => ?_
    unfold finding?
    split
    · cases o.nearestType? <;> rfl
    · rfl
  · rw [orphanEntries, findings_eq_filterMap, List.filterMap_filterMap, ← List.filterMap_eq_map,
      List.filterMap_filter]
    refine List.filterMap_congr fun o _ => ?_
    unfold finding?
    by_cases hmethod : o.node.kind.is .method = true
    · rw [if_pos hmethod, hmethod, Bool.true_and]
      cases o.nearestType? <;> rfl
    · rw [if_neg hmethod, Bool.eq_false_iff.2 hmethod, Bool.false_and]
      rfl

end MethodChunk

end SymbolAtlas
