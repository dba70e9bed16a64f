import SymbolAtlas.Symbols.Build

/-!
# Building is structural recursion

A nested symbol becomes a tree by working through a stack and a table. The result is that of the
plain recursion on the symbol, whatever its depth and its branching, and nothing else is left in the
table.

* `SymbolNode.tree` — the recursion, with the equation `SymbolNode.tree_eq`;
* `SymbolNode.childrenInduction` — induction on a nested symbol through its children;
* `SymbolNode.buildStack_symbol` — what working through a symbol on top of the stack comes to;
* `SymbolNode.Reached` — where the loop gets to, with `SymbolNode.Reached.apart`: the table is a
  dictionary all the while;
* `SymbolNode.building_is_recursion` — the whole.
-/

namespace SymbolAtlas.SymbolNode

open Lsp

/-! ## The recursion -/

mutual

/-- The tree of a nested symbol. -/
def tree (uri : Text) : DocumentSymbol → SymbolNode
  | ⟨name, kind, range, selectionRange, detail, _, _, children⟩ =>
    { name := name, kind := .known kind,
      location := some { uri := uri, range := some range, selection := some selectionRange },
      detail := detail, children := optionTrees uri children, flat := false }

/-- The trees of a list of children, if there is one. -/
def optionTrees (uri : Text) : Option (List DocumentSymbol) → List SymbolNode
  | none => []
  | some ss => trees uri ss

/-- The trees of several nested symbols. -/
def trees (uri : Text) : List DocumentSymbol → List SymbolNode
  | [] => []
  | s :: ss => tree uri s :: trees uri ss

end

theorem trees_eq_map (uri : Text) (ss : List DocumentSymbol) : trees uri ss = ss.map (tree uri) := by
  induction ss with
  | nil => rfl
  | cons s ss ih => rw [trees, ih, List.map_cons]

theorem optionTrees_eq_map (uri : Text) (children : Option (List DocumentSymbol)) :
    optionTrees uri children = (children.getD []).map (tree uri) := by
  cases children with
  | none => rfl
  | some ss => exact trees_eq_map uri ss

theorem tree_eq (uri : Text) (s : DocumentSymbol) :
    tree uri s = ofParts uri s ((childrenOf s).map (tree uri)) := by
  obtain ⟨name, kind, range, selectionRange, detail, tags, deprecated, children⟩ := s
  rw [tree, optionTrees_eq_map]
  rfl

/-! ## Counting symbols -/

theorem optionCount_eq (children : Option (List DocumentSymbol)) :
    optionCount children = listCount (children.getD []) := by
  cases children with
  | none => rfl
  | some ss => rfl

theorem symbolCount_eq (s : DocumentSymbol) : symbolCount s = listCount (childrenOf s) + 1 := by
  obtain ⟨name, kind, range, selectionRange, detail, tags, deprecated, children⟩ := s
  rw [symbolCount, optionCount_eq]
  rfl

theorem symbolCount_le_listCount {s : DocumentSymbol} {ss : List DocumentSymbol} (h : s ∈ ss) :
    symbolCount s ≤ listCount ss := by
  induction h with
  | head ss => exact Nat.le_add_right _ _
  | tail s' _ ih => exact Nat.le_trans ih (Nat.le_add_left _ _)

theorem symbolCount_lt_of_mem {s c : DocumentSymbol} (h : c ∈ childrenOf s) :
    symbolCount c < symbolCount s := by
  rw [symbolCount_eq s]
  exact Nat.lt_succ_of_le (symbolCount_le_listCount h)

/-- What every symbol inherits from its children holds of all symbols. -/
theorem childrenInduction {P : DocumentSymbol → Prop}
    (h : ∀ s, (∀ c ∈ childrenOf s, P c) → P s) (s : DocumentSymbol) : P s :=
  h s fun c _ => childrenInduction h c
termination_by symbolCount s
decreasing_by exact symbolCount_lt_of_mem ‹_›

/-! ## Tables -/

/-- What is ready comes out of the table in front of the rest. -/
theorem takeAll?_append (ready table : Table) :
    Table.takeAll? (ready ++ table) (ready.map Prod.fst) = some (ready.map Prod.snd, table) := by
  induction ready with
  | nil => rfl
  | cons e ready ih =>
    obtain ⟨place, n⟩ := e
    have hhead : Table.take? ((place, n) :: (ready ++ table)) place = some (n, ready ++ table) := by
      simp [Table.take?]
    simp [Table.takeAll?, hhead, ih]

/-! ## Rounds of the loop -/

/-- One round of the loop: what becomes of a task and of the stack and the table beneath it, if the
nodes of the children are there when they are needed. -/
def round (uri : Text) (task : Task) (stack : List Task) (table : Table) :
    Option (List Task × Table) :=
  if task.expanded then
    (table.takeAll? (childPlaces task.place task.symbol)).map fun (children, rest) =>
      (stack, (task.place, ofParts uri task.symbol children) :: rest)
  else some (childTasks task.place task.symbol ++ { task with expanded := true } :: stack, table)

/-- The stacks and tables that the loop for a symbol goes through. -/
inductive Reached (uri : Text) (root : DocumentSymbol) : List Task → Table → Prop
  | start : Reached uri root [⟨[], root, false⟩] []
  | next {task : Task} {stack stack' : List Task} {table table' : Table}
      (h : Reached uri root (task :: stack) table)
      (hround : round uri task stack table = some (stack', table')) : Reached uri root stack' table'

section

variable {uri : Text}

theorem buildStack_nil (fuel : Nat) (table : Table) : buildStack uri fuel [] table = some table := by
  rw [buildStack]

theorem buildStack_succ (fuel : Nat) (task : Task) (stack : List Task) (table : Table) :
    buildStack uri (fuel + 1) (task :: stack) table =
      (round uri task stack table).bind fun (stack', table') =>
        buildStack uri fuel stack' table' := by
  rw [buildStack, round]
  split
  · cases table.takeAll? (childPlaces task.place task.symbol) <;> rfl
  · rfl

/-- From wherever the loop gets to it comes to the same end. -/
theorem Reached.exists_buildStack_eq {root : DocumentSymbol} {stack : List Task}
    {table result : Table} (h : Reached uri root stack table)
    (hstart : ∃ fuel, buildStack uri fuel [⟨[], root, false⟩] [] = some result) :
    ∃ fuel, buildStack uri fuel stack table = some result := by
  induction h with
  | start => exact hstart
  | next _ hround ih =>
    obtain ⟨_ | fuel, hfuel⟩ := ih
    · cases hfuel
    · rw [buildStack_succ, hround] at hfuel
      exact ⟨fuel, hfuel⟩

end

/-! ## Working through the stack -/

/-- The children of a symbol with their places. -/
def placedChildren (place : Place) (s : DocumentSymbol) : List (Place × DocumentSymbol) :=
  (childPlaces place s).zip (childrenOf s)

theorem map_fst_placedChildren (place : Place) (s : DocumentSymbol) :
    (placedChildren place s).map Prod.fst = childPlaces place s :=
  List.map_fst_zip (by simp [childPlaces])

theorem map_snd_placedChildren (place : Place) (s : DocumentSymbol) :
    (placedChildren place s).map Prod.snd = childrenOf s :=
  List.map_snd_zip (by simp [childPlaces])

/-- The task of a symbol that is met for the first time. -/
def freshTask (p : Place × DocumentSymbol) : Task :=
  ⟨p.1, p.2, false⟩

theorem childTasks_eq (place : Place) (s : DocumentSymbol) :
    childTasks place s = (placedChildren place s).reverse.map freshTask := rfl

/-- The entry of a symbol whose tree is ready. -/
def readyEntry (uri : Text) (p : Place × DocumentSymbol) : Place × SymbolNode :=
  (p.1, tree uri p.2)

/-- Working through the symbol, wherever it is on top of whatever stack, puts its tree on the table
and touches nothing else. -/
def Builds (uri : Text) (s : DocumentSymbol) : Prop :=
  ∀ place stack table fuel,
    buildStack uri (2 * symbolCount s + fuel) (freshTask (place, s) :: stack) table =
      buildStack uri fuel stack (readyEntry uri (place, s) :: table)

section

variable {uri : Text}

theorem buildStack_fresh (place : Place) (s : DocumentSymbol) (stack : List Task) (table : Table)
    (fuel : Nat) :
    buildStack uri (fuel + 1) (freshTask (place, s) :: stack) table =
      buildStack uri fuel (childTasks place s ++ ⟨place, s, true⟩ :: stack) table :=
  buildStack_succ fuel _ stack table

theorem buildStack_expanded {place : Place} {s : DocumentSymbol} {table rest : Table}
    {ns : List SymbolNode} (h : table.takeAll? (childPlaces place s) = some (ns, rest))
    (stack : List Task) (fuel : Nat) :
    buildStack uri (fuel + 1) (⟨place, s, true⟩ :: stack) table =
      buildStack uri fuel stack ((place, ofParts uri s ns) :: rest) := by
  rw [buildStack_succ, round, if_pos rfl, h]
  rfl

/-- The last symbol is met first, so the trees end up in order. -/
theorem buildStack_freshTasks {ps : List (Place × DocumentSymbol)}
    (hps : ∀ s ∈ ps.map Prod.snd, Builds uri s) (stack : List Task) (table : Table) (fuel : Nat) :
    buildStack uri (2 * listCount (ps.map Prod.snd) + fuel) (ps.reverse.map freshTask ++ stack)
        table =
      buildStack uri fuel stack (ps.map (readyEntry uri) ++ table) := by
  induction ps generalizing stack fuel with
  | nil => simp [listCount]
  | cons p ps ih =>
    obtain ⟨place, s⟩ := p
    rw [List.map_cons, List.forall_mem_cons] at hps
    have hsplit : (((place, s) :: ps).reverse.map freshTask ++ stack) =
        ps.reverse.map freshTask ++ freshTask (place, s) :: stack := by
      simp
    have hfuel : 2 * listCount (((place, s) :: ps).map Prod.snd) + fuel =
        2 * listCount (ps.map Prod.snd) + (2 * symbolCount s + fuel) := by
      simp only [List.map_cons, listCount]
      omega
    rw [hsplit, hfuel, ih hps.2, hps.1, List.map_cons, List.cons_append]

/-- The trees of the children, in front of the rest of the table, are taken out of it. -/
theorem takeAll?_placedChildren (place : Place) (s : DocumentSymbol) (table : Table) :
    Table.takeAll? ((placedChildren place s).map (readyEntry uri) ++ table) (childPlaces place s) =
      some ((childrenOf s).map (tree uri), table) := by
  have hplaces : ((placedChildren place s).map (readyEntry uri)).map Prod.fst =
      childPlaces place s := by
    rw [← map_fst_placedChildren, List.map_map]
    rfl
  have htrees : ((placedChildren place s).map (readyEntry uri)).map Prod.snd =
      (childrenOf s).map (tree uri) := by
    rw [← map_snd_placedChildren place s, List.map_map, List.map_map]
    rfl
  rw [← hplaces, takeAll?_append, htrees]

/-- A symbol is met twice: the first time its children are put on the stack, and when they have been
worked through their trees are taken from the table. -/
theorem buildStack_symbol (s : DocumentSymbol) : Builds uri s := by
  induction s using childrenInduction with
  | h s ih =>
    intro place stack table fuel
    rw [← map_snd_placedChildren place s] at ih
    have hfuel : 2 * symbolCount s + fuel =
        2 * listCount ((placedChildren place s).map Prod.snd) + (fuel + 1) + 1 := by
      rw [map_snd_placedChildren, symbolCount_eq]
      omega
    rw [hfuel, buildStack_fresh, childTasks_eq, buildStack_freshTasks ih,
      buildStack_expanded (takeAll?_placedChildren place s table), ← tree_eq]
    rfl

end

/-! ## The table is a dictionary -/

section

variable {uri : Text}

theorem take?_sublist {table rest : Table} {place : Place} {n : SymbolNode}
    (h : table.take? place = some (n, rest)) : rest.Sublist table := by
  induction table generalizing n rest with
  | nil => cases h
  | cons e table ih =>
    unfold Table.take? at h
    split at h
    · cases h
      exact List.sublist_cons_self _ _
    · obtain ⟨⟨m, rest'⟩, hrest, heq⟩ := Option.map_eq_some_iff.1 h
      cases heq
      exact (ih hrest).cons_cons e

theorem takeAll?_sublist {table rest : Table} {places : List Place} {ns : List SymbolNode}
    (h : table.takeAll? places = some (ns, rest)) : rest.Sublist table := by
  induction places generalizing table ns with
  | nil =>
    cases h
    exact List.Sublist.refl _
  | cons place places ih =>
    unfold Table.takeAll? at h
    obtain ⟨⟨n, table'⟩, hhead, h⟩ := Option.bind_eq_some_iff.1 h
    obtain ⟨⟨ns', rest'⟩, htail, heq⟩ := Option.bind_eq_some_iff.1 h
    cases heq
    exact (ih htail).trans (take?_sublist hhead)

/-- The place is not that of the task, and not in it either if the task has not been met. -/
def Task.Clear (t : Task) (place : Place) : Prop :=
  t.place ≠ place ∧ (t.expanded = false → ¬ t.place <:+ place)

/-- No two tasks, no two entries, and no task and entry are in each other's way. -/
structure Apart (stack : List Task) (table : Table) : Prop where
  tasks : stack.Pairwise fun a b => a.Clear b.place ∧ b.Clear a.place
  entries : ∀ t ∈ stack, ∀ e ∈ table, t.Clear e.1
  nodup : (table.map Prod.fst).Nodup

theorem mem_childTasks {place : Place} {s : DocumentSymbol} {t : Task}
    (h : t ∈ childTasks place s) : ∃ i, t.place = i :: place ∧ t.expanded = false := by
  rw [childTasks_eq] at h
  obtain ⟨p, hp, rfl⟩ := List.mem_map.1 h
  have hplace : p.1 ∈ childPlaces place s :=
    (List.of_mem_zip (List.mem_reverse.1 hp)).1
  obtain ⟨i, -, hi⟩ := List.mem_map.1 hplace
  exact ⟨i, hi.symm, rfl⟩

theorem pairwise_childTasks (place : Place) (s : DocumentSymbol) :
    (childTasks place s).Pairwise fun a b => a.place ≠ b.place := by
  have hnodup : (childPlaces place s).Nodup := by
    rw [childPlaces, List.Nodup, List.pairwise_map]
    exact List.nodup_range.imp fun h => by simpa using h
  rw [← map_fst_placedChildren, List.Nodup, List.pairwise_map] at hnodup
  rw [childTasks_eq, List.pairwise_map, List.pairwise_reverse]
  exact hnodup.imp fun h => h.symm

section Clear

variable {t c b : Task} {place : Place} {i : Nat}

theorem Task.Clear.expanded (h : t.Clear place) : Task.Clear { t with expanded := true } place :=
  ⟨h.1, nofun⟩

/-- What a symbol that has not been met is clear of, its children are clear of. -/
theorem Task.Clear.child (h : t.Clear place) (ht : t.expanded = false)
    (hc : c.place = i :: t.place) : c.Clear place := by
  have hin : t.place <:+ c.place := hc ▸ List.suffix_cons _ _
  exact ⟨fun heq => h.2 ht (heq ▸ hin), fun _ hsuffix => h.2 ht (hin.trans hsuffix)⟩

/-- What is clear of a symbol that has not been met, and the other way round, is clear of its
children. -/
theorem Task.Clear.of_parent (h : b.Clear t.place) (h' : t.Clear b.place)
    (ht : t.expanded = false) (hc : c.place = i :: t.place) : b.Clear c.place := by
  have hne : b.place ≠ c.place := fun heq => (h'.child ht hc).1 heq.symm
  refine ⟨hne, fun hb hsuffix => ?_⟩
  rw [hc, List.suffix_cons_iff, ← hc] at hsuffix
  exact hsuffix.elim hne (h.2 hb)

theorem clear_sibling {j : Nat} (hb : b.place = i :: place) (hc : c.place = j :: place)
    (hne : b.place ≠ c.place) : b.Clear c.place :=
  ⟨hne, fun _ hsuffix => hne (hsuffix.eq_of_length (by simp [hb, hc]))⟩

theorem clear_own (hc : c.place = i :: place) : c.Clear place := by
  have hlength : place.length < c.place.length := by simp [hc]
  refine ⟨fun heq => ?_, fun _ hsuffix => ?_⟩
  · rw [heq] at hlength
    omega
  · have hle := hsuffix.length_le
    omega

end Clear

theorem apart_start (root : DocumentSymbol) : Apart [⟨[], root, false⟩] [] where
  tasks := List.pairwise_singleton _ _
  entries := by simp
  nodup := by simp

variable {task : Task} {stack stack' : List Task} {table table' : Table}

/-- A symbol that is met for the first time makes room for its children. -/
theorem Apart.expand (h : Apart (task :: stack) table) (htask : task.expanded = false) :
    Apart (childTasks task.place task.symbol ++ { task with expanded := true } :: stack) table := by
  obtain ⟨hown, hstack⟩ := List.pairwise_cons.1 h.tasks
  obtain ⟨hentries, hothers⟩ := List.forall_mem_cons.1 h.entries
  constructor
  case tasks =>
    refine List.pairwise_append.2 ⟨?_, List.pairwise_cons.2 ⟨?_, hstack⟩, ?_⟩
    · refine (pairwise_childTasks _ _).imp_of_mem fun {a b} ha hb hne => ?_
      obtain ⟨i, hi, -⟩ := mem_childTasks ha
      obtain ⟨j, hj, -⟩ := mem_childTasks hb
      exact ⟨clear_sibling hi hj hne, clear_sibling hj hi hne.symm⟩
    · exact fun b hb => ⟨(hown b hb).1.expanded, (hown b hb).2⟩
    · intro c hc b hb
      obtain ⟨i, hi, -⟩ := mem_childTasks hc
      obtain rfl | hb := List.mem_cons.1 hb
      · exact ⟨clear_own hi, fun heq => (clear_own hi).1 heq.symm, nofun⟩
      · obtain ⟨hout, hin⟩ := hown b hb
        exact ⟨hout.child htask hi, hin.of_parent hout htask hi⟩
  case entries =>
    intro t ht e he
    obtain ht | ht := List.mem_append.1 ht
    · obtain ⟨i, hi, -⟩ := mem_childTasks ht
      exact (hentries e he).child htask hi
    · obtain rfl | ht := List.mem_cons.1 ht
      · exact (hentries e he).expanded
      · exact hothers t ht e he
  case nodup => exact h.nodup

/-- A symbol whose children are ready gives its place in the stack to an entry of the table. -/
theorem Apart.build (h : Apart (task :: stack) table) (hrest : table'.Sublist table)
    (n : SymbolNode) : Apart stack ((task.place, n) :: table') := by
  obtain ⟨hown, hstack⟩ := List.pairwise_cons.1 h.tasks
  obtain ⟨hentries, hothers⟩ := List.forall_mem_cons.1 h.entries
  refine ⟨hstack, fun t ht e he => ?_, ?_⟩
  · obtain rfl | he := List.mem_cons.1 he
    · exact (hown t ht).2
    · exact hothers t ht e (hrest.mem he)
  · rw [List.map_cons, List.nodup_cons]
    refine ⟨fun hmem => ?_, (hrest.map Prod.fst).nodup h.nodup⟩
    obtain ⟨e, he, heq⟩ := List.mem_map.1 hmem
    exact (hentries e (hrest.mem he)).1 heq.symm

theorem Apart.round (h : Apart (task :: stack) table)
    (hround : SymbolNode.round uri task stack table = some (stack', table')) :
    Apart stack' table' := by
  unfold SymbolNode.round at hround
  split at hround
  · obtain ⟨⟨ns, rest⟩, htake, heq⟩ := Option.map_eq_some_iff.1 hround
    cases heq
    exact h.build (takeAll?_sublist htake) _
  · next htask =>
    cases hround
    exact h.expand (by simpa using htask)

/-- The loop enters no place a second time. -/
theorem Reached.apart {root : DocumentSymbol} (h : Reached uri root stack table) :
    Apart stack table := by
  induction h with
  | start => exact apart_start root
  | next _ hround ih => exact ih.round hround

end

/-! ## The whole -/

/-- The loop ends with the tree of the root and nothing else in the table. -/
theorem buildStack_root (uri : Text) (root : DocumentSymbol) (more : Nat) :
    buildStack uri (2 * symbolCount root + more) [⟨[], root, false⟩] [] =
      some [([], tree uri root)] :=
  (buildStack_symbol root [] [] [] more).trans (buildStack_nil more _)

theorem ofDocumentSymbol_eq_tree (uri : Text) (root : DocumentSymbol) :
    ofDocumentSymbol uri root = tree uri root := by
  have htable : buildTable uri root = some [([], tree uri root)] := buildStack_root uri root 0
  rw [ofDocumentSymbol, htable]
  rfl

/-- **Building is structural recursion.** Whatever the depth and the branching of a nested symbol,
working through the stack ends, with the node of every child in the table when it is taken out, and
the tree of the root is all that is left there. On the way no place has two entries, and from
wherever the loop gets to it comes to that end. The tree has the name, the kind and the detail of
the symbol, its ranges in the document asked about, and the trees of its children in their order,
where no list of children is the same as an empty one. -/
theorem building_is_recursion (uri : Text) (root : DocumentSymbol) :
    (∀ more, buildStack uri (2 * symbolCount root + more) [⟨[], root, false⟩] [] =
      some [([], tree uri root)]) ∧
    buildTable uri root = some [([], tree uri root)] ∧
    (∀ stack table, Reached uri root stack table → (table.map Prod.fst).Nodup ∧
      ∃ fuel, buildStack uri fuel stack table = some [([], tree uri root)]) ∧
    ofDocumentSymbol uri root = tree uri root ∧
    ∀ s, tree uri s =
      { name := s.name, kind := .known s.kind,
        location := some
          { uri := uri, range := some s.range, selection := some s.selectionRange },
        detail := s.detail, children := (s.children.getD []).map (tree uri), flat := false } := by
  refine ⟨buildStack_root uri root, buildStack_root uri root 0, fun stack table h => ?_,
    ofDocumentSymbol_eq_tree uri root, tree_eq uri⟩
  exact ⟨h.apart.nodup, h.exists_buildStack_eq ⟨_, buildStack_root uri root 0⟩⟩

/-- A class with the given symbols in it. -/
def sampleClass (name : String) (children : List DocumentSymbol) : DocumentSymbol :=
  { name := name, kind := .classKind, range := ⟨⟨0, 0⟩, ⟨9, 0⟩⟩,
    selectionRange := ⟨⟨0, 6⟩, ⟨0, 7⟩⟩, detail := none, tags := none, deprecated := none,
    children := some children }

/-- A class with two classes in it that are alike and have one each. -/
def sampleTwins : DocumentSymbol :=
  sampleClass "A" [sampleClass "B" [sampleClass "C" []], sampleClass "B" [sampleClass "C" []]]

/-- After two rounds the last twin has been met and its child is on top of the stack. -/
theorem sampleTwins_reached : ∃ stack table,
    Reached "file:///A.java" sampleTwins stack table ∧ stack.length = 4 ∧
      ∃ fuel, buildStack "file:///A.java" fuel stack table =
        some [([], tree "file:///A.java" sampleTwins)] := by
  have hstart : Reached "file:///A.java" sampleTwins [⟨[], sampleTwins, false⟩] [] := .start
  have hreached := (hstart.next rfl).next rfl
  obtain ⟨-, -, hend, -, -⟩ := building_is_recursion "file:///A.java" sampleTwins
  exact ⟨_, _, hreached, rfl, (hend _ _ hreached).2⟩

end SymbolAtlas.SymbolNode
