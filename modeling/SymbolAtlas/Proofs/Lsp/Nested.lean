import SymbolAtlas.Lsp.Decode
import SymbolAtlas.Proofs.Outcomes

/-!
# Decoding nested symbols

A nested symbol decodes if its own fields do and, level by level, all symbols in it. The decoder
counts the levels and stops at a bound; in a value that is not nested beyond the bound it stops
nowhere.

* `Lsp.Decode.Reads` — the value of a nested symbol, whatever the number of its levels;
* `Lsp.Decode.documentSymbolTo_eq_ok_iff` — what the decoder makes of a value.
-/

namespace SymbolAtlas

namespace Lsp.Decode

/-! ## Levels of symbols -/

/-- The fields of a nested symbol but for the symbols in it. -/
structure OwnFields (fields : Json.Object) (s : DocumentSymbol) : Prop where
  name : required fields "name" text = .ok s.name
  kind : required fields "kind" (coded SymbolKind.ofCode?) = .ok s.kind
  range : required fields "range" range = .ok s.range
  selectionRange : required fields "selectionRange" Decode.range = .ok s.selectionRange
  detail : optional fields "detail" text = .ok s.detail
  tags : optional fields "tags" symbolTags = .ok s.tags
  deprecated : optional fields "deprecated" truth = .ok s.deprecated

/-- A value says what a nested symbol is, and so do, at every depth, the values of the symbols in
it. -/
inductive Reads : Json → DocumentSymbol → Prop
  /-- There is no list of children. -/
  | alone {fields : Json.Object} {s : DocumentSymbol} (own : OwnFields fields s)
      (habsent : Fields.get? fields "children" = none ∨
        Fields.get? fields "children" = some .null)
      (hs : s.children = none) : Reads (.obj fields) s
  /-- All that is walked through as a list of children are symbols. -/
  | around {fields : Json.Object} {s : DocumentSymbol} {v : Json} {items : List Json}
      {children : List DocumentSymbol} (own : OwnFields fields s)
      (hpresent : Fields.get? fields "children" = some v) (hitems : walked? v = some items)
      (hs : s.children = some children) (inside : List.Forall₂ Reads items children) :
      Reads (.obj fields) s

/-- All that a list of children is walked through as can be read if the symbol can. -/
theorem Reads.inside {fields : Json.Object} {s : DocumentSymbol} {v w : Json} {items : List Json}
    (h : Reads (.obj fields) s) (hv : Fields.get? fields "children" = some v)
    (hitems : walked? v = some items) (hw : w ∈ items) : ∃ child, Reads w child := by
  cases h with
  | alone own habsent hs =>
    rcases habsent with hnone | hnull
    · cases hv.symm.trans hnone
    · cases hv.symm.trans hnull
      cases hitems
  | around own hpresent hitems' hs hinside =>
    cases hv.symm.trans hpresent
    cases hitems.symm.trans hitems'
    exact exists_forall₂_iff.1 ⟨_, hinside⟩ w hw

theorem documentSymbolTo_succ {depth : Nat} {fields : Json.Object} {s : DocumentSymbol} :
    documentSymbolTo (depth + 1) (.obj fields) = .ok s ↔
      OwnFields fields s ∧
        optional fields "children" (listOf (documentSymbolTo depth)) = .ok s.children := by
  simp only [documentSymbolTo, object, bind_eq_ok]
  constructor
  · rintro ⟨_, ⟨⟩, name, hname, kind, hkind, range, hrange, selectionRange, hselectionRange, detail,
      hdetail, tags, htags, deprecated, hdeprecated, children, hchildren, ⟨⟩⟩
    exact ⟨⟨hname, hkind, hrange, hselectionRange, hdetail, htags, hdeprecated⟩, hchildren⟩
  · rintro ⟨own, hchildren⟩
    refine ⟨fields, rfl, _, own.name, _, own.kind, _, own.range, _, own.selectionRange, _,
      own.detail, _, own.tags, _, own.deprecated, _, hchildren, ?_⟩
    cases s
    rfl

theorem documentSymbolTo_of_not_obj {depth : Nat} {v : Json} (h : ∀ fields, v ≠ .obj fields)
    (s : DocumentSymbol) : documentSymbolTo depth v ≠ .ok s := by
  intro hok
  cases depth with
  | zero => cases hok
  | succ depth =>
    rw [documentSymbolTo, bind_eq_ok] at hok
    obtain ⟨fields, hobject, -⟩ := hok
    cases v with
    | obj fields => exact h fields rfl
    | _ => cases hobject

/-! ## Fields of children -/

section

variable {α : Type} {item : Decoder α} {v : Json}

theorem listOf_eq_ok {as : List α} :
    listOf item v = .ok as ↔
      ∃ items, walked? v = some items ∧ List.Forall₂ (fun w a => item w = .ok a) items as := by
  unfold listOf
  split
  · next items hitems => simp [hitems, mapM_eq_ok]
  · next hnone => simp [hnone]

theorem optional_eq_ok {fields : Json.Object} {name : String} {a? : Option α} :
    optional fields name item = .ok a? ↔
      (a? = none ∧ (Fields.get? fields name = none ∨ Fields.get? fields name = some .null)) ∨
      ∃ v a, a? = some a ∧ Fields.get? fields name = some v ∧ v ≠ .null ∧ item v = .ok a := by
  unfold optional
  split
  · next hnone => simp [hnone, eq_comm]
  · next hnull => simp [hnull, eq_comm]
  · next v hnull hsome =>
    rw [map_eq_ok]
    constructor
    · rintro ⟨a, ha, rfl⟩
      exact .inr ⟨v, a, rfl, hsome, hnull, ha⟩
    · rintro (⟨-, hnone⟩ | ⟨w, a, rfl, hw, -, ha⟩)
      · exact (hnull (by simpa [hsome] using hnone)).elim
      · obtain rfl : v = w := Option.some.inj (hsome.symm.trans hw)
        exact ⟨a, ha, rfl⟩

/-- What a list of children is walked through as is nested at least two levels less than the symbol
with the list. -/
theorem nesting_of_mem_walked {fields : Json.Object} {name : Text} {items : List Json} {w : Json}
    (hv : Fields.get? fields name = some v) (hitems : walked? v = some items) (hw : w ∈ items) :
    w.nesting ≤ (Json.obj fields).nesting - 2 := by
  have hfields := Json.nesting_lt_of_get? hv
  cases v with
  | arr items' =>
    cases hitems
    have hitem := Json.nesting_lt_of_mem hw
    omega
  | obj fields' =>
    cases hitems
    obtain ⟨f, -, rfl⟩ := List.mem_map.1 hw
    exact Nat.zero_le _
  | str t =>
    cases hitems
    obtain ⟨c, -, rfl⟩ := List.mem_map.1 hw
    exact Nat.zero_le _
  | _ => cases hitems

end

/-! ## The decoder -/

/-- Within the bound the decoder reads all levels. A level of symbols is two levels of JSON, the
object and the list that it is in. -/
theorem documentSymbolTo_eq_ok_iff {depth : Nat} {v : Json} (h : v.nesting ≤ 2 * depth)
    {s : DocumentSymbol} : documentSymbolTo depth v = .ok s ↔ Reads v s := by
  induction depth generalizing v s with
  | zero =>
    have hobj : ∀ fields, v ≠ .obj fields := by
      rintro fields rfl
      rw [Json.nesting] at h
      omega
    refine iff_of_false (documentSymbolTo_of_not_obj hobj s) ?_
    rintro ⟨⟩ <;> exact hobj _ rfl
  | succ depth ih =>
    by_cases hobj : ∃ fields, v = .obj fields
    case neg =>
      rw [not_exists] at hobj
      refine iff_of_false (documentSymbolTo_of_not_obj hobj s) ?_
      rintro ⟨⟩ <;> exact hobj _ rfl
    obtain ⟨fields, rfl⟩ := hobj
    -- an element of the list is two levels down, so one level of symbols less is enough for it
    have hinside : ∀ {w items children}, Fields.get? fields "children" = some w →
        walked? w = some items →
        (List.Forall₂ (fun c s => documentSymbolTo depth c = .ok s) items children ↔
          List.Forall₂ Reads items children) := by
      intro w items children hw hitems
      refine forall₂_congr_left fun c hc s => ih ?_
      have hle := nesting_of_mem_walked hw hitems hc
      omega
    rw [documentSymbolTo_succ, optional_eq_ok]
    constructor
    · rintro ⟨own, ⟨hs, habsent⟩ | ⟨w, children, hs, hw, -, hchildren⟩⟩
      · exact .alone own habsent hs
      · obtain ⟨items, hitems, hchildren⟩ := listOf_eq_ok.1 hchildren
        exact .around own hw hitems hs ((hinside hw hitems).1 hchildren)
    · intro hreads
      cases hreads with
      | alone own habsent hs => exact ⟨own, .inl ⟨hs, habsent⟩⟩
      | around own hw hitems hs inside =>
        have hchildren := listOf_eq_ok.2 ⟨_, hitems, (hinside hw hitems).2 inside⟩
        refine ⟨own, .inr ⟨_, _, hs, hw, ?_, hchildren⟩⟩
        rintro rfl
        cases hitems

end Lsp.Decode

end SymbolAtlas
