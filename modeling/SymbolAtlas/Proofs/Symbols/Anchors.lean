import SymbolAtlas.Chunks.Extract
import SymbolAtlas.Proofs.Symbols.Answers
import SymbolAtlas.Proofs.Symbols.Trees

/-!
# Where selection ranges come from

A symbol that has a selection range stands in the document that was asked about, whatever the server
says: only nested symbols have one, and those are placed in the document by the client. This is
followed from the answer through the building of the trees to the methods that are collected.

* `SymbolNode.Anchored` — a symbol and all symbols in it, with `Answer.anchored_of_documentSymbols`;
* `MethodChunk.Anchored` — a method, with `MethodChunk.anchored_of_extract`.
-/

namespace SymbolAtlas

open Lsp

/-- A place that has a selection range is in the document. -/
def SymbolPlacement.AnchoredIn (uri : Text) (place : Option SymbolPlacement) : Prop :=
  ∀ p, place = some p → p.selection.isSome → p.uri = uri

namespace SymbolNode

/-- A symbol, and every symbol in it, that has a selection range is in the document. -/
inductive Anchored (uri : Text) : SymbolNode → Prop
  | mk {n : SymbolNode} (hplace : SymbolPlacement.AnchoredIn uri n.location)
      (hchildren : ∀ c ∈ n.children, Anchored uri c) : Anchored uri n

variable {uri : Text}

theorem Anchored.place {n : SymbolNode} (h : n.Anchored uri) :
    SymbolPlacement.AnchoredIn uri n.location := by
  obtain ⟨hplace, -⟩ := h
  exact hplace

theorem Anchored.children {n : SymbolNode} (h : n.Anchored uri) :
    ∀ c ∈ n.children, c.Anchored uri := by
  obtain ⟨-, hchildren⟩ := h
  exact hchildren

/-- A flat symbol has no selection range, in whatever document it is. -/
theorem anchored_ofInformation (s : SymbolInformation) : (ofInformation s).Anchored uri := by
  refine .mk ?_ (by simp [ofInformation])
  rintro p ⟨⟩ hselection
  simp at hselection

theorem anchored_ofParts (s : DocumentSymbol) {children : List SymbolNode}
    (h : ∀ c ∈ children, c.Anchored uri) : (ofParts uri s children).Anchored uri := by
  refine .mk ?_ h
  rintro p ⟨⟩ -
  rfl

theorem anchored_ofDocumentSymbol (root : DocumentSymbol) :
    (ofDocumentSymbol uri root).Anchored uri := by
  rw [ofDocumentSymbol_eq_tree]
  induction root using childrenInduction with
  | h s ih =>
    rw [tree_eq]
    refine anchored_ofParts s fun n hn => ?_
    obtain ⟨c, hc, rfl⟩ := List.mem_map.1 hn
    exact ih c hc

end SymbolNode

theorem Answer.anchored_of_documentSymbols {uri : Text} {v : Json} {ns : List SymbolNode}
    (h : Answer.documentSymbols uri v = .ok ns) : ∀ n ∈ ns, n.Anchored uri := by
  refine forall_of_decodeAll (fun fields n hn => ?_) h
  unfold documentNode at hn
  split at hn
  · cases hs : Decode.payload "SymbolInformation" Decode.symbolInformation (.obj fields) with
    | error e => simp [hs, Except.map] at hn
    | ok s =>
      rw [hs] at hn
      cases hn
      exact SymbolNode.anchored_ofInformation s
  · cases hs : Decode.payload "DocumentSymbol" Decode.documentSymbol (.obj fields) with
    | error e => simp [hs, Except.map] at hn
    | ok s =>
      rw [hs] at hn
      cases hn
      exact SymbolNode.anchored_ofDocumentSymbol s

/-! ## Collecting methods -/

namespace MethodChunk

/-- A method that has a selection range is in the document. -/
def Anchored (uri : Text) (c : MethodChunk) : Prop :=
  SymbolPlacement.AnchoredIn uri c.location

variable {uri : Text} {lines : List String}

theorem anchored_of_visit {enclosing : Option Text} {n : SymbolNode} {c : MethodChunk}
    (h : n.Anchored uri) (hc : .chunk c ∈ visit lines enclosing n) : c.Anchored uri := by
  unfold visit at hc
  split at hc
  · split at hc
    · cases List.mem_singleton.1 hc
      exact h.place
    · cases List.mem_singleton.1 hc
  · cases hc

theorem anchored_of_findingsStack {fuel : Nat} {stack : List (Option Text × SymbolNode)}
    {c : MethodChunk} (h : ∀ e ∈ stack, e.2.Anchored uri)
    (hc : .chunk c ∈ findingsStack lines fuel stack) : c.Anchored uri := by
  induction fuel generalizing stack with
  | zero => cases hc
  | succ fuel ih =>
    cases stack with
    | nil => cases hc
    | cons e stack =>
      obtain ⟨hhead, htail⟩ := List.forall_mem_cons.1 h
      unfold findingsStack at hc
      obtain hc | hc := List.mem_append.1 hc
      · exact anchored_of_visit hhead hc
      · refine ih (fun e' he' => ?_) hc
        obtain he' | he' := List.mem_append.1 he'
        · obtain ⟨child, hchild, rfl⟩ := List.mem_map.1 he'
          exact hhead.children child hchild
        · exact htail e' he'

theorem anchored_of_extract {ns : List SymbolNode} {text : String} {c : MethodChunk}
    (h : ∀ n ∈ ns, n.Anchored uri) (hc : c ∈ extract ns text) : c.Anchored uri := by
  obtain ⟨finding, hfinding, hchunk⟩ := List.mem_filterMap.1 hc
  cases finding with
  | orphan name => cases hchunk
  | chunk c' =>
    cases hchunk
    refine anchored_of_findingsStack (fun e he => ?_) hfinding
    obtain ⟨n, hn, rfl⟩ := List.mem_map.1 he
    exact h n hn

end MethodChunk

end SymbolAtlas
