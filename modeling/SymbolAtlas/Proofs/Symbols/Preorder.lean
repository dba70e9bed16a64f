import Mathlib.Data.List.Nodup
import SymbolAtlas.Proofs.Symbols.Occurrences
import SymbolAtlas.Symbols.Node

/-!
# Walking loses no structure

The walk over a forest is the plain recursion: each symbol with its depth, then the symbols in it,
then the symbols beside it. It comes to every place of the forest once. The depths alone tell where
the symbols in a symbol end, so what is seen on a walk determines the forest, and so do the lines
that are shown for it.

* `SymbolNode.preorder` — the recursion, with `SymbolNode.walk_eq_preorder`;
* `SymbolNode.forestInduction` — induction on a forest through the children and the siblings of its
  first symbol;
* `SymbolNode.placed` — all symbols with their addresses, none of which comes twice;
* `SymbolNode.Alike` — forests of one shape, with `SymbolNode.labels_eq_iff`;
* `SymbolNode.walk_preorder` — the whole.
-/

namespace SymbolAtlas.SymbolNode

/-! ## The recursion -/

theorem sizeAll_children_lt (n : SymbolNode) (ns : List SymbolNode) :
    sizeAll n.children < sizeAll (n :: ns) := by
  rw [sizeAll, size_eq]
  omega

theorem sizeAll_lt_cons (n : SymbolNode) (ns : List SymbolNode) :
    sizeAll ns < sizeAll (n :: ns) := by
  rw [sizeAll, size_eq]
  omega

/-- The symbols of a forest whose roots have the given depth: each with its depth, then the symbols
in it, then the symbols beside it. -/
def preorder (depth : Nat) (ns : List SymbolNode) : List (Nat × SymbolNode) :=
  match ns with
  | [] => []
  | n :: ns => (depth, n) :: (preorder (depth + 1) n.children ++ preorder depth ns)
termination_by sizeAll ns
decreasing_by
  · exact sizeAll_children_lt n ns
  · exact sizeAll_lt_cons n ns

/-- What a forest inherits from the symbols in its first symbol and from those beside it holds of
all forests. -/
theorem forestInduction {P : List SymbolNode → Prop} (nil : P [])
    (cons : ∀ n ns, P n.children → P ns → P (n :: ns)) (ns : List SymbolNode) : P ns :=
  match ns with
  | [] => nil
  | n :: ns => cons n ns (forestInduction nil cons n.children) (forestInduction nil cons ns)
termination_by sizeAll ns
decreasing_by
  · exact sizeAll_children_lt n ns
  · exact sizeAll_lt_cons n ns

theorem preorder_nil (depth : Nat) : preorder depth [] = [] := by
  rw [preorder]

theorem preorder_cons (depth : Nat) (n : SymbolNode) (ns : List SymbolNode) :
    preorder depth (n :: ns) =
      (depth, n) :: (preorder (depth + 1) n.children ++ preorder depth ns) := by
  rw [preorder]

theorem map_occurrencesInAll (ns around : List SymbolNode) :
    (occurrencesInAll around ns).map (fun o => (o.around.length, o.node)) =
      preorder around.length ns := by
  induction ns using forestInduction generalizing around with
  | nil => rw [occurrencesInAll, preorder_nil, List.map_nil]
  | cons n ns inside beside =>
    have hinside := inside (n :: around)
    rw [occurrencesInAll_eq_flatMap] at hinside
    rw [occurrencesInAll, occurrencesIn_eq, List.cons_append, List.map_cons, List.map_append,
      hinside, beside, preorder_cons, List.length_cons]

theorem walk_eq_preorder (ns : List SymbolNode) : walk ns = preorder 0 ns := by
  rw [walk_eq_map_occurrences, occurrences]
  exact map_occurrencesInAll ns []

theorem length_preorder (depth : Nat) (ns : List SymbolNode) :
    (preorder depth ns).length = sizeAll ns := by
  induction ns using forestInduction generalizing depth with
  | nil => rw [preorder_nil, sizeAll, List.length_nil]
  | cons n ns inside beside =>
    rw [preorder_cons, List.length_cons, List.length_append, inside, beside, sizeAll, size_eq]
    omega

/-! ## Every place once -/

/-- Where a symbol stands in a forest: the number of its tree, and then the numbers of the children
on the way to it from the root. -/
abbrev Address := Nat × List Nat

/-- The symbol to which the numbers of some children lead. -/
def descend (n : SymbolNode) : List Nat → Option SymbolNode
  | [] => some n
  | i :: steps => n.children[i]?.bind fun c => descend c steps

/-- The symbol at an address. -/
def symbolAt? (ns : List SymbolNode) (a : Address) : Option SymbolNode :=
  ns[a.1]?.bind fun n => descend n a.2

/-- The address in a forest of what has the given address among the children of its first symbol. -/
def Address.inFirst (a : Address) : Address :=
  (0, a.1 :: a.2)

/-- The address in a forest of what has the given address beside its first symbol. -/
def Address.beside (a : Address) : Address :=
  (a.1 + 1, a.2)

/-- All symbols of a forest with their addresses, in the order of the walk. -/
def placed (ns : List SymbolNode) : List (Address × SymbolNode) :=
  match ns with
  | [] => []
  | n :: ns =>
    ((0, []), n) :: ((placed n.children).map (Prod.map Address.inFirst id) ++
      (placed ns).map (Prod.map Address.beside id))
termination_by sizeAll ns
decreasing_by
  · exact sizeAll_children_lt n ns
  · exact sizeAll_lt_cons n ns

theorem placed_nil : placed [] = [] := by
  rw [placed]

theorem placed_cons (n : SymbolNode) (ns : List SymbolNode) :
    placed (n :: ns) =
      ((0, []), n) :: ((placed n.children).map (Prod.map Address.inFirst id) ++
        (placed ns).map (Prod.map Address.beside id)) := by
  rw [placed]

/-- The depth of a symbol is the number of steps to it from its root. -/
theorem map_placed (depth : Nat) (ns : List SymbolNode) :
    (placed ns).map (fun p => (depth + p.1.2.length, p.2)) = preorder depth ns := by
  induction ns using forestInduction generalizing depth with
  | nil => rw [placed_nil, preorder_nil, List.map_nil]
  | cons n ns inside beside =>
    have hinside := inside (depth + 1)
    simp only [Nat.add_assoc, Nat.add_comm 1] at hinside
    simp [placed_cons, preorder_cons, Function.comp_def, Address.inFirst, Address.beside, hinside,
      beside]

theorem symbolAt?_inFirst (n : SymbolNode) (ns : List SymbolNode) (a : Address) :
    symbolAt? (n :: ns) a.inFirst = symbolAt? n.children a := rfl

theorem symbolAt?_beside (n : SymbolNode) (ns : List SymbolNode) (a : Address) :
    symbolAt? (n :: ns) a.beside = symbolAt? ns a := by
  simp [symbolAt?, Address.beside]

/-- An address leads to the first symbol, into it, or past it. -/
theorem Address.cases (a : Address) :
    a = (0, []) ∨ (∃ b : Address, a = b.inFirst) ∨ ∃ b : Address, a = b.beside := by
  match a with
  | (0, []) => exact .inl rfl
  | (0, i :: steps) => exact .inr (.inl ⟨(i, steps), rfl⟩)
  | (i + 1, steps) => exact .inr (.inr ⟨(i, steps), rfl⟩)

theorem Address.inFirst_injective : Function.Injective Address.inFirst := by
  rintro ⟨i, steps⟩ ⟨j, steps'⟩ h
  simpa [Address.inFirst] using h

theorem Address.beside_injective : Function.Injective Address.beside := by
  rintro ⟨i, steps⟩ ⟨j, steps'⟩ h
  simpa [Address.beside] using h

theorem mem_placed {ns : List SymbolNode} {a : Address} {m : SymbolNode} :
    (a, m) ∈ placed ns ↔ symbolAt? ns a = some m := by
  induction ns using forestInduction generalizing a with
  | nil => simp [placed_nil, symbolAt?]
  | cons n ns inside beside =>
    obtain rfl | ⟨b, rfl⟩ | ⟨b, rfl⟩ := a.cases
    · simp [placed_cons, symbolAt?, descend, Address.inFirst, Address.beside, eq_comm]
    · rw [symbolAt?_inFirst, ← inside]
      simp [placed_cons, Address.inFirst, Address.beside]
    · rw [symbolAt?_beside, ← beside]
      simp [placed_cons, Address.inFirst, Address.beside]

/-- No address comes twice. -/
theorem nodup_placed (ns : List SymbolNode) : ((placed ns).map Prod.fst).Nodup := by
  induction ns using forestInduction with
  | nil => simp [placed_nil]
  | cons n ns inside beside =>
    have haddresses : (placed (n :: ns)).map Prod.fst =
        (0, []) :: (((placed n.children).map Prod.fst).map Address.inFirst ++
          ((placed ns).map Prod.fst).map Address.beside) := by
      simp [placed_cons, Function.comp_def]
    rw [haddresses, List.nodup_cons, List.nodup_append]
    refine ⟨?_, inside.map Address.inFirst_injective, beside.map Address.beside_injective, ?_⟩
    · simp [Address.inFirst, Address.beside]
    · intro a ha b hb
      obtain ⟨a, -, rfl⟩ := List.mem_map.1 ha
      obtain ⟨b, -, rfl⟩ := List.mem_map.1 hb
      simp [Address.inFirst, Address.beside]

/-! ## What is seen determines the forest -/

section Labels

variable {β : Type} {label : SymbolNode → β}

/-- Forests of one shape whose symbols have the same labels. -/
inductive Alike (label : SymbolNode → β) : List SymbolNode → List SymbolNode → Prop
  | nil : Alike label [] []
  | cons {n m : SymbolNode} {ns ms : List SymbolNode} (same : label n = label m)
      (inside : Alike label n.children m.children) (beside : Alike label ns ms) :
      Alike label (n :: ns) (m :: ms)

/-- What is seen of a forest: the depths of its symbols and their labels. -/
def labels (label : SymbolNode → β) (depth : Nat) (ns : List SymbolNode) : List (Nat × β) :=
  (preorder depth ns).map fun e => (e.1, label e.2)

theorem labels_nil (depth : Nat) : labels label depth [] = [] := by
  rw [labels, preorder_nil, List.map_nil]

theorem labels_cons (depth : Nat) (n : SymbolNode) (ns : List SymbolNode) :
    labels label depth (n :: ns) =
      (depth, label n) :: (labels label (depth + 1) n.children ++ labels label depth ns) := by
  rw [labels, preorder_cons, List.map_cons, List.map_append]
  rfl

theorem le_of_mem_labels {depth : Nat} {ns : List SymbolNode} :
    ∀ e ∈ labels label depth ns, depth ≤ e.1 := by
  induction ns using forestInduction generalizing depth with
  | nil => simp [labels_nil]
  | cons n ns inside beside =>
    intro e he
    rw [labels_cons, List.mem_cons, List.mem_append] at he
    obtain rfl | he | he := he
    · exact Nat.le_refl depth
    · exact Nat.le_of_succ_le (inside e he)
    · exact beside e he

/-- The symbols in a symbol end where the depth is no longer greater. -/
theorem takeWhile_labels (depth : Nat) (children ns : List SymbolNode) :
    (labels label (depth + 1) children ++ labels label depth ns).takeWhile
        (fun e => decide (depth < e.1)) = labels label (depth + 1) children := by
  have hstop : (labels label depth ns).takeWhile (fun e => decide (depth < e.1)) = [] := by
    cases ns with
    | nil => rw [labels_nil, List.takeWhile_nil]
    | cons n ns => simp [labels_cons]
  rw [List.takeWhile_append_of_pos, hstop, List.append_nil]
  intro e he
  have hdepth := le_of_mem_labels e he
  rw [decide_eq_true_eq]
  omega

theorem labels_append_inj {depth : Nat} {children children' ns ms : List SymbolNode}
    (h : labels label (depth + 1) children ++ labels label depth ns =
      labels label (depth + 1) children' ++ labels label depth ms) :
    labels label (depth + 1) children = labels label (depth + 1) children' ∧
      labels label depth ns = labels label depth ms := by
  have hinside := congrArg (List.takeWhile fun e => decide (depth < e.1)) h
  rw [takeWhile_labels, takeWhile_labels] at hinside
  rw [hinside] at h
  exact ⟨hinside, List.append_cancel_left h⟩

theorem alike_of_labels_eq {depth : Nat} {ns ms : List SymbolNode}
    (h : labels label depth ns = labels label depth ms) : Alike label ns ms := by
  induction ns using forestInduction generalizing depth ms with
  | nil =>
    cases ms with
    | nil => exact .nil
    | cons m ms => simp [labels_nil, labels_cons] at h
  | cons n ns inside beside =>
    cases ms with
    | nil => simp [labels_nil, labels_cons] at h
    | cons m ms =>
      rw [labels_cons, labels_cons, List.cons.injEq, Prod.mk.injEq] at h
      obtain ⟨⟨-, hlabel⟩, hrest⟩ := h
      obtain ⟨hinside, hbeside⟩ := labels_append_inj hrest
      exact .cons hlabel (inside hinside) (beside hbeside)

theorem Alike.labels_eq {ns ms : List SymbolNode} (h : Alike label ns ms) (depth : Nat) :
    labels label depth ns = labels label depth ms := by
  induction h generalizing depth with
  | nil => rfl
  | cons same _ _ inside beside => rw [labels_cons, labels_cons, same, inside, beside]

/-- Two walks give the same depths and labels just if the forests have the same shape and the same
labels. -/
theorem labels_eq_iff {depth : Nat} {ns ms : List SymbolNode} :
    labels label depth ns = labels label depth ms ↔ Alike label ns ms :=
  ⟨alike_of_labels_eq, fun h => h.labels_eq depth⟩

end Labels

/-- All there is to a symbol but the symbols in it. -/
def face (n : SymbolNode) : Text × NodeKind × Option Text × Option SymbolPlacement × Bool :=
  (n.name, n.kind, n.detail, n.location, n.flat)

theorem eq_of_face_eq {n m : SymbolNode} (h : n.face = m.face)
    (hchildren : n.children = m.children) : n = m := by
  cases n
  cases m
  simp_all [face]

theorem alike_face_iff {ns ms : List SymbolNode} : Alike face ns ms ↔ ns = ms := by
  constructor
  · intro h
    induction h with
    | nil => rfl
    | cons same _ _ inside beside => rw [eq_of_face_eq same inside, beside]
  · rintro rfl
    exact labels_eq_iff.1 (rfl : labels face 0 ns = labels face 0 ns)

/-! ## What is shown -/

/-- The line of a symbol is indented by twice its depth. -/
theorem line_eq_indent (depth : Nat) (n : SymbolNode) :
    line depth n = List.replicate (2 * depth) (.char ' ') ++ line 0 n := by
  simp [line, Text.ofChars]

theorem head?_line (n : SymbolNode) : (line 0 n).head? = some (.char '-') := rfl

/-! ## The whole -/

/-- **The walk is the preorder and loses no structure.** A walk meets the symbols of a forest in the
order of the plain recursion, each with its depth, and comes to every address once. Two forests on
whose walks the same is seen but for the children, depth by depth, are equal. This is so whatever is
compared of the symbols, if the forests are compared in the same way. What is shown of a forest is a
line for each symbol in this order, indented by twice the depth, and what is counted are these. -/
theorem walk_preorder (ns : List SymbolNode) :
    walk ns = preorder 0 ns ∧
    (walk ns = (placed ns).map (fun p => (p.1.2.length, p.2)) ∧
      ((placed ns).map Prod.fst).Nodup ∧
      ∀ a n, (a, n) ∈ placed ns ↔ symbolAt? ns a = some n) ∧
    (∀ ms, ns = ms ↔
      (walk ns).map (fun e => (e.1, e.2.name, e.2.kind, e.2.detail, e.2.location, e.2.flat)) =
        (walk ms).map (fun e => (e.1, e.2.name, e.2.kind, e.2.detail, e.2.location, e.2.flat))) ∧
    (∀ (β : Type) (label : SymbolNode → β) (ms : List SymbolNode), Alike label ns ms ↔
      (walk ns).map (fun e => (e.1, label e.2)) = (walk ms).map fun e => (e.1, label e.2)) ∧
    renderTree ns =
      (preorder 0 ns).map (fun e => List.replicate (2 * e.1) (.char ' ') ++ line 0 e.2) ∧
    (∀ n, (line 0 n).head? = some (.char '-')) ∧
    count ns = (renderTree ns).length ∧ count ns = sizeAll ns := by
  refine ⟨walk_eq_preorder ns, ⟨?_, nodup_placed ns, fun a n => mem_placed⟩, fun ms => ?_,
    fun β label ms => ?_, ?_, head?_line, ?_, ?_⟩
  · have hplaced := map_placed 0 ns
    simp only [Nat.zero_add] at hplaced
    rw [walk_eq_preorder, hplaced]
  · rw [← alike_face_iff, ← labels_eq_iff, walk_eq_preorder, walk_eq_preorder]
    rfl
  · rw [← labels_eq_iff, walk_eq_preorder, walk_eq_preorder]
    rfl
  · rw [renderTree, walk_eq_preorder]
    exact List.map_congr_left fun e _ => line_eq_indent e.1 e.2
  · rw [renderTree, List.length_map, count]
  · rw [count, walk_eq_preorder, length_preorder]

end SymbolAtlas.SymbolNode
