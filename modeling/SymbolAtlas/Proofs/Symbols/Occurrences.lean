import SymbolAtlas.Symbols.Node

/-!
# Symbols and what is around them

A walk over a forest meets every symbol once. What it needs to know about the symbols around one,
such as how many there are, it carries along on its stack. Here every symbol of a forest is listed
with all symbols around it, by plain recursion, and a walk that carries anything along is shown to
meet just these.

* `SymbolNode.Occurrence` — a symbol with the symbols around it;
* `SymbolNode.occurrences` — all symbols of a forest, in the order in which they are shown;
* `SymbolNode.stackWalk` — a walk that carries something along, with
  `SymbolNode.stackWalk_eq_flatMap`;
* `SymbolNode.walk_eq_map_occurrences` — the walk that carries the depth.
-/

namespace SymbolAtlas.SymbolNode

/-- A symbol of a forest with the symbols around it, the innermost first. -/
structure Occurrence where
  around : List SymbolNode
  node : SymbolNode

mutual

/-- A symbol with the given symbols around it and all symbols in it. -/
def occurrencesIn (around : List SymbolNode) : SymbolNode → List Occurrence
  | ⟨name, kind, location, detail, children, flat⟩ =>
    ⟨around, ⟨name, kind, location, detail, children, flat⟩⟩ ::
      occurrencesInAll (⟨name, kind, location, detail, children, flat⟩ :: around) children

/-- Several symbols with the given symbols around them and all symbols in them. -/
def occurrencesInAll (around : List SymbolNode) : List SymbolNode → List Occurrence
  | [] => []
  | n :: ns => occurrencesIn around n ++ occurrencesInAll around ns

end

/-- All symbols of a forest: each, then everything in it, then the symbols beside it. -/
def occurrences (ns : List SymbolNode) : List Occurrence :=
  occurrencesInAll [] ns

theorem occurrencesInAll_eq_flatMap (around ns : List SymbolNode) :
    occurrencesInAll around ns = ns.flatMap (occurrencesIn around) := by
  induction ns with
  | nil => rfl
  | cons n ns ih => rw [occurrencesInAll, ih, List.flatMap_cons]

theorem occurrencesIn_eq (around : List SymbolNode) (n : SymbolNode) :
    occurrencesIn around n = ⟨around, n⟩ :: n.children.flatMap (occurrencesIn (n :: around)) := by
  cases n
  rw [occurrencesIn, occurrencesInAll_eq_flatMap]

/-! ## Walks that carry something along -/

section StackWalk

variable {σ β : Type} (inner : σ → SymbolNode → σ) (visit : σ → SymbolNode → List β)

/-- The walk over a stack whose next symbol is the first one, `inner` being what is carried on into
a symbol and `visit` what comes out of it. -/
def stackWalk : Nat → List (σ × SymbolNode) → List β
  | 0, _ => []
  | _ + 1, [] => []
  | fuel + 1, (s, n) :: stack =>
    visit s n ++ stackWalk fuel (n.children.map (fun c => (inner s n, c)) ++ stack)

/-- The symbols in a symbol, each with what is around it. -/
def Occurrence.inside (o : Occurrence) : List Occurrence :=
  o.node.children.map fun c => ⟨o.node :: o.around, c⟩

theorem sizeAll_inside (o : Occurrence) (stack : List Occurrence) :
    sizeAll ((o :: stack).map Occurrence.node) =
      sizeAll ((o.inside ++ stack).map Occurrence.node) + 1 := by
  have hinside : o.inside.map Occurrence.node = o.node.children := by
    simp [Occurrence.inside, Function.comp_def]
  rw [List.map_append, hinside, sizeAll_append, List.map_cons, sizeAll, size_eq]
  omega

theorem occurrencesIn_eq_cons (o : Occurrence) :
    occurrencesIn o.around o.node =
      o :: o.inside.flatMap fun o' => occurrencesIn o'.around o'.node := by
  rw [occurrencesIn_eq, Occurrence.inside, List.flatMap_map]

/-- If what is carried along depends on the symbols around alone, then a walk over any stack gives
what its symbols and the symbols in them give one after the other. -/
theorem stackWalk_eq_flatMap (carried : List SymbolNode → σ)
    (hinner : ∀ around n, carried (n :: around) = inner (carried around) n) {fuel : Nat}
    {stack : List Occurrence} (hfuel : sizeAll (stack.map Occurrence.node) ≤ fuel) :
    stackWalk inner visit fuel (stack.map fun o => (carried o.around, o.node)) =
      (stack.flatMap fun o => occurrencesIn o.around o.node).flatMap fun o =>
        visit (carried o.around) o.node := by
  induction fuel generalizing stack with
  | zero =>
    cases stack with
    | nil => rfl
    | cons o stack =>
      rw [sizeAll_inside] at hfuel
      omega
  | succ fuel ih =>
    cases stack with
    | nil => rfl
    | cons o stack =>
      rw [sizeAll_inside] at hfuel
      have hinside : o.node.children.map (fun c => (inner (carried o.around) o.node, c)) =
          o.inside.map fun o' => (carried o'.around, o'.node) := by
        rw [Occurrence.inside, List.map_map]
        exact List.map_congr_left fun c _ => by rw [Function.comp_apply, hinner]
      rw [List.map_cons, stackWalk, hinside, ← List.map_append, ih (by omega),
        List.flatMap_cons, occurrencesIn_eq_cons, List.cons_append, List.flatMap_cons,
        List.flatMap_append]

/-- A walk over a forest meets the occurrences of its symbols in their order. -/
theorem stackWalk_forest (carried : List SymbolNode → σ)
    (hinner : ∀ around n, carried (n :: around) = inner (carried around) n)
    (ns : List SymbolNode) :
    stackWalk inner visit (sizeAll ns) (ns.map fun n => (carried [], n)) =
      (occurrences ns).flatMap fun o => visit (carried o.around) o.node := by
  have hnodes : (ns.map fun n => (⟨[], n⟩ : Occurrence)).map Occurrence.node = ns := by
    simp [Function.comp_def]
  have h := stackWalk_eq_flatMap inner visit carried hinner
    (Nat.le_of_eq (congrArg sizeAll hnodes))
  rw [List.map_map, List.flatMap_map] at h
  rw [occurrences, occurrencesInAll_eq_flatMap]
  exact h

end StackWalk

/-! ## The walk that carries the depth -/

theorem walkStack_eq_stackWalk (fuel : Nat) (stack : List (Nat × SymbolNode)) :
    walkStack fuel stack = stackWalk (fun depth _ => depth + 1) (fun depth n => [(depth, n)]) fuel
      stack := by
  induction fuel generalizing stack with
  | zero => rfl
  | succ fuel ih =>
    cases stack with
    | nil => rfl
    | cons e stack => rw [walkStack, ih, stackWalk, List.singleton_append]

/-- The depth of a symbol is the number of symbols around it. -/
theorem walk_eq_map_occurrences (ns : List SymbolNode) :
    walk ns = (occurrences ns).map fun o => (o.around.length, o.node) := by
  have h := stackWalk_forest (fun depth _ => depth + 1) (fun depth n => [(depth, n)]) List.length
    (fun around n => List.length_cons) ns
  rw [walk, walkStack_eq_stackWalk]
  exact h.trans List.map_eq_flatMap.symm

end SymbolAtlas.SymbolNode
