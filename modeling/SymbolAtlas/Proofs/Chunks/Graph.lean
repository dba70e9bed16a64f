import Mathlib.Data.List.Basic
import SymbolAtlas.Proofs.Chunks.Attribution

/-!
# Callers and callees describe one graph

The callers and the callees of all methods are two views of the same edges. What is listed on one
side is listed on the other, and the names on both sides are those of methods, each once and never
the method's own. The callees of a method stand in the order in which they were first found to be
called by it.

A method is told from others by its qualified name, which its overloads share. So a call is lost if
it is made by an overload of the method that it calls.

* `CallGraph.Calls` — the graph, with `CallGraph.exists_callers_iff` and
  `CallGraph.exists_callees_iff` for its two views;
* `CallGraph.uses` — the references that belong to a method, in the order in which they are found;
* `CallGraph.linkWith_one_graph` — the whole, for every way of asking for references;
* `CallGraph.linkWith_lone_use` — when a call that only one method can have made is listed, with
  `CallGraph.overload_call_lost`.
-/

namespace SymbolAtlas.CallGraph

open Lsp

/-! ## Edges by their numbers -/

section Numbered

variable {α : Type} {row : α → List Nat}

theorem mem_numbered {as : List α} {e : Edge} :
    e ∈ numbered row as 0 ↔ ∃ a, as[e.1]? = some a ∧ e.2 ∈ row a := by
  constructor
  · intro he
    obtain ⟨l, hl, he⟩ := List.mem_flatten.1 he
    obtain ⟨⟨a, n⟩, ha, rfl⟩ := List.mem_map.1 hl
    obtain ⟨j, hj, rfl⟩ := List.mem_map.1 he
    exact ⟨a, List.mk_mem_zipIdx_iff_getElem?.1 ha, hj⟩
  · rintro ⟨a, ha, hj⟩
    refine List.mem_flatten.2 ⟨_, List.mem_map.2 ⟨(a, e.1), ?_, rfl⟩, List.mem_map.2 ⟨e.2, hj, rfl⟩⟩
    exact List.mk_mem_zipIdx_iff_getElem?.2 ha

/-- Rows whose entries increase are increasing pairs. -/
theorem pairwise_numbered (hrow : ∀ a, (row a).Pairwise (· < ·)) (as : List α) (k : Nat) :
    (numbered row as k).Pairwise (Prod.Lex (· < ·) (· < ·)) := by
  induction as generalizing k with
  | nil => exact .nil
  | cons a as ih =>
    rw [numbered_cons, List.pairwise_append]
    refine ⟨?_, ih (k + 1), ?_⟩
    · rw [List.pairwise_map]
      exact (hrow a).imp fun h => .right k h
    · intro e he e' he'
      obtain ⟨j, -, rfl⟩ := List.mem_map.1 he
      have hle := le_of_mem_numbered row he'
      exact .left j e'.2 (by omega)

end Numbered

section Edges

variable {chunks : List MethodChunk} {refs : List (List Location)}

/-- The numbers of the methods that the references to a method belong to. -/
def owners (chunks : List MethodChunk) (p : MethodChunk × List Location) : List Nat :=
  p.2.filterMap (caller? chunks p.1)

theorem edges_eq_numbered : edges chunks refs = numbered (owners chunks) (chunks.zip refs) 0 := rfl

/-- An edge is a reference to its first method that belongs to its second. -/
theorem mem_edges {e : Edge} :
    e ∈ edges chunks refs ↔ ∃ target rs r caller, chunks[e.1]? = some target ∧
      refs[e.1]? = some rs ∧ r ∈ rs ∧ CalledFrom chunks target r e.2 caller := by
  simp only [edges_eq_numbered, mem_numbered, owners, List.getElem?_zip_eq_some,
    List.mem_filterMap, caller?_eq_some_iff, Prod.exists]
  constructor
  · rintro ⟨target, rs, ⟨htarget, hrs⟩, r, hr, caller, hcaller⟩
    exact ⟨target, rs, r, caller, htarget, hrs, hr, hcaller⟩
  · rintro ⟨target, rs, r, caller, htarget, hrs, hr, hcaller⟩
    exact ⟨target, rs, ⟨htarget, hrs⟩, r, hr, caller, hcaller⟩

/-- The methods of an edge have different names. -/
theorem qualifiedName_ne_of_mem_edges {e : Edge} {callee caller : MethodChunk}
    (he : e ∈ edges chunks refs) (hcallee : chunks[e.1]? = some callee)
    (hcaller : chunks[e.2]? = some caller) : caller.qualifiedName ≠ callee.qualifiedName := by
  obtain ⟨target, rs, r, source, htarget, -, -, hfrom⟩ := mem_edges.1 he
  obtain rfl : target = callee := Option.some.inj (htarget.symm.trans hcallee)
  obtain rfl : source = caller := Option.some.inj (hfrom.member.symm.trans hcaller)
  exact hfrom.holds.1

end Edges

/-! ## Two views of the edges -/

section Views

variable {chunks : List MethodChunk} {refs : List (List Location)} {es : List Edge} {name : Text}

theorem mem_namesOf {numbers : List Nat} :
    name ∈ namesOf chunks numbers ↔
      ∃ j ∈ numbers, ∃ c, chunks[j]? = some c ∧ c.qualifiedName = name := by
  simp [namesOf, List.mem_eraseDups]

theorem mem_callersOf {i : Nat} :
    name ∈ callersOf chunks es i ↔
      ∃ e ∈ es, e.1 = i ∧ ∃ c, chunks[e.2]? = some c ∧ c.qualifiedName = name := by
  simp only [callersOf, mem_namesOf, List.mem_filterMap, Option.ite_none_right_eq_some]
  grind

theorem mem_calleesOf {j : Nat} :
    name ∈ calleesOf chunks es j ↔
      ∃ e ∈ es, e.2 = j ∧ ∃ c, chunks[e.1]? = some c ∧ c.qualifiedName = name := by
  simp only [calleesOf, mem_namesOf, List.mem_filterMap, Option.ite_none_right_eq_some]
  grind

/-- What linking makes of the method with number `i`. -/
def linked (chunks : List MethodChunk) (es : List Edge) (i : Nat) (c : MethodChunk) : MethodChunk :=
  { c with calledBy := callersOf chunks es i, dependencies := calleesOf chunks es i }

theorem link_getElem? (i : Nat) :
    (link chunks refs)[i]? = chunks[i]?.map (linked chunks (edges chunks refs) i) := by
  simp only [link, List.getElem?_map, List.getElem?_zipIdx, Option.map_map, Nat.zero_add]
  rfl

theorem mem_link {c' : MethodChunk} :
    c' ∈ link chunks refs ↔
      ∃ i c, chunks[i]? = some c ∧ linked chunks (edges chunks refs) i c = c' := by
  simp [List.mem_iff_getElem?, link_getElem?]

/-- A method of the one name calls one of the other. -/
def Calls (chunks : List MethodChunk) (es : List Edge) (caller callee : Text) : Prop :=
  ∃ e ∈ es, ∃ source target, chunks[e.2]? = some source ∧ chunks[e.1]? = some target ∧
    source.qualifiedName = caller ∧ target.qualifiedName = callee

theorem exists_callers_iff {caller callee : Text} :
    (∃ c ∈ link chunks refs, c.qualifiedName = callee ∧ caller ∈ c.calledBy) ↔
      Calls chunks (edges chunks refs) caller callee := by
  constructor
  · rintro ⟨c', hc', rfl, hcaller⟩
    obtain ⟨i, target, htarget, rfl⟩ := mem_link.1 hc'
    obtain ⟨e, he, rfl, source, hsource, rfl⟩ := mem_callersOf.1 hcaller
    exact ⟨e, he, source, target, hsource, htarget, rfl, rfl⟩
  · rintro ⟨e, he, source, target, hsource, htarget, rfl, rfl⟩
    have hcaller := mem_callersOf.2 ⟨e, he, rfl, source, hsource, rfl⟩
    exact ⟨_, mem_link.2 ⟨e.1, target, htarget, rfl⟩, rfl, hcaller⟩

theorem exists_callees_iff {caller callee : Text} :
    (∃ c ∈ link chunks refs, c.qualifiedName = caller ∧ callee ∈ c.dependencies) ↔
      Calls chunks (edges chunks refs) caller callee := by
  constructor
  · rintro ⟨c', hc', rfl, hcallee⟩
    obtain ⟨j, source, hsource, rfl⟩ := mem_link.1 hc'
    obtain ⟨e, he, rfl, target, htarget, rfl⟩ := mem_calleesOf.1 hcallee
    exact ⟨e, he, source, target, hsource, htarget, rfl, rfl⟩
  · rintro ⟨e, he, source, target, hsource, htarget, rfl, rfl⟩
    have hcallee := mem_calleesOf.2 ⟨e, he, rfl, target, htarget, rfl⟩
    exact ⟨_, mem_link.2 ⟨e.2, source, hsource, rfl⟩, rfl, hcallee⟩

/-- The methods of an edge have different names. -/
theorem not_calls_self {name : Text} : ¬ Calls chunks (edges chunks refs) name name := by
  rintro ⟨e, he, source, target, hsource, htarget, hname, hname'⟩
  exact qualifiedName_ne_of_mem_edges he htarget hsource (hname.trans hname'.symm)

end Views

/-! ## The order of callees -/

section Order

variable {chunks : List MethodChunk} {refs : List (List Location)} {j : Nat}

/-- The numbers of those references to a method that belong to the method with number `j`. -/
def usesIn (chunks : List MethodChunk) (j : Nat) (p : MethodChunk × List Location) : List Nat :=
  (p.2.zipIdx.filter fun x => caller? chunks p.1 x.1 == some j).map Prod.snd

/-- The references that belong to the method with number `j`, each as the number of the method that
it is to and its own number, in the order in which they are found. -/
def uses (chunks : List MethodChunk) (refs : List (List Location)) (j : Nat) : List (Nat × Nat) :=
  numbered (usesIn chunks j) (chunks.zip refs) 0

/-- The reference with the second number to the method with the first belongs to the method with
number `j`. -/
def UsedBy (chunks : List MethodChunk) (refs : List (List Location)) (j : Nat) (p : Nat × Nat) :
    Prop :=
  ∃ target rs r caller, chunks[p.1]? = some target ∧ refs[p.1]? = some rs ∧ rs[p.2]? = some r ∧
    CalledFrom chunks target r j caller

theorem mem_usesIn {target : MethodChunk} {rs : List Location} {n : Nat} :
    n ∈ usesIn chunks j (target, rs) ↔
      ∃ r caller, rs[n]? = some r ∧ CalledFrom chunks target r j caller := by
  simp [usesIn, List.mk_mem_zipIdx_iff_getElem?, caller?_eq_some_iff]

theorem mem_uses {p : Nat × Nat} : p ∈ uses chunks refs j ↔ UsedBy chunks refs j p := by
  simp only [uses, mem_numbered, List.getElem?_zip_eq_some, mem_usesIn, Prod.exists, UsedBy]
  constructor
  · rintro ⟨target, rs, ⟨htarget, hrs⟩, r, caller, hr, hcaller⟩
    exact ⟨target, rs, r, caller, htarget, hrs, hr, hcaller⟩
  · rintro ⟨target, rs, r, caller, htarget, hrs, hr, hcaller⟩
    exact ⟨target, rs, ⟨htarget, hrs⟩, r, caller, hr, hcaller⟩

theorem pairwise_usesIn (p : MethodChunk × List Location) :
    (usesIn chunks j p).Pairwise (· < ·) := by
  have hnumbers : (p.2.zipIdx.map Prod.snd).Pairwise (· < ·) := by
    rw [List.zipIdx_map_snd]
    exact List.pairwise_lt_range'
  rw [usesIn, List.pairwise_map]
  exact (List.pairwise_map.1 hnumbers).filter _

theorem pairwise_uses : (uses chunks refs j).Pairwise (Prod.Lex (· < ·) (· < ·)) :=
  pairwise_numbered pairwise_usesIn _ _

/-- The callee of an edge, if its caller has the number. -/
def calleeAt (j : Nat) (e : Edge) : Option Nat :=
  if e.2 = j then some e.1 else none

/-- Those of the references to a method that belong to the method with number `j`. -/
def kept (chunks : List MethodChunk) (j : Nat) (p : MethodChunk × List Location) : List Location :=
  p.2.filter fun r => caller? chunks p.1 r == some j

theorem map_usesIn (p : MethodChunk × List Location) (k : Nat) :
    (usesIn chunks j p).map (fun _ => k) = (kept chunks j p).map fun _ => k := by
  have hkept : (p.2.zipIdx.filter fun x => caller? chunks p.1 x.1 == some j).map Prod.fst =
      kept chunks j p := by
    rw [kept, ← List.zipIdx_map_fst 0 p.2, List.filter_map, List.zipIdx_map_fst]
    rfl
  rw [usesIn, ← hkept, List.map_map, List.map_map]
  rfl

theorem filterMap_owners (p : MethodChunk × List Location) (k : Nat) :
    ((owners chunks p).map fun i => (k, i)).filterMap (calleeAt j) =
      (kept chunks j p).map fun _ => k := by
  rw [owners, kept, List.filterMap_map, List.filterMap_filterMap, ← List.filterMap_eq_map,
    List.filterMap_filter]
  refine List.filterMap_congr fun r _ => ?_
  cases caller? chunks p.1 r with
  | none => rfl
  | some i => by_cases hi : i = j <;> simp [hi, calleeAt]

theorem map_fst_numbered (ps : List (MethodChunk × List Location)) (k : Nat) :
    (numbered (usesIn chunks j) ps k).map Prod.fst =
      (numbered (owners chunks) ps k).filterMap (calleeAt j) := by
  induction ps generalizing k with
  | nil => rfl
  | cons p ps ih =>
    rw [numbered_cons, numbered_cons, List.map_append, List.filterMap_append, ih,
      filterMap_owners, ← map_usesIn, List.map_map]
    rfl

/-- The callees of a method are those whose references belong to it, each once. -/
theorem calleesOf_edges :
    calleesOf chunks (edges chunks refs) j =
      ((uses chunks refs j).filterMap fun p =>
        chunks[p.1]?.map MethodChunk.qualifiedName).eraseDups := by
  have h : (uses chunks refs j).map Prod.fst = (edges chunks refs).filterMap (calleeAt j) :=
    map_fst_numbered _ 0
  change namesOf chunks ((edges chunks refs).filterMap (calleeAt j)) = _
  rw [← h, namesOf, List.filterMap_map]
  rfl

end Order

/-! ## One graph -/

section Graph

variable {chunks : List MethodChunk} {refs : List (List Location)}

/-- The callers and the callees of the linked methods are two views of one graph on the names of
the methods. -/
structure OneGraph (chunks linked : List MethodChunk) : Prop where
  /-- A caller is listed with its callee just if the callee is listed with its caller. -/
  mirrored : ∀ caller callee, (∃ c ∈ linked, c.qualifiedName = callee ∧ caller ∈ c.calledBy) ↔
    ∃ c ∈ linked, c.qualifiedName = caller ∧ callee ∈ c.dependencies
  known : ∀ c ∈ linked, ∀ name, name ∈ c.calledBy ∨ name ∈ c.dependencies →
    ∃ d ∈ chunks, d.qualifiedName = name
  nodup : ∀ c ∈ linked, c.calledBy.Nodup ∧ c.dependencies.Nodup
  irreflexive : ∀ c ∈ linked, c.qualifiedName ∉ c.calledBy ∧ c.qualifiedName ∉ c.dependencies

theorem link_oneGraph : OneGraph chunks (link chunks refs) where
  mirrored := fun caller callee => exists_callers_iff.trans exists_callees_iff.symm
  known := by
    intro c' hc' name hname
    obtain ⟨i, c, hc, rfl⟩ := mem_link.1 hc'
    obtain hname | hname := hname
    · obtain ⟨e, -, -, d, hd, rfl⟩ := mem_callersOf.1 hname
      exact ⟨d, List.mem_of_getElem? hd, rfl⟩
    · obtain ⟨e, -, -, d, hd, rfl⟩ := mem_calleesOf.1 hname
      exact ⟨d, List.mem_of_getElem? hd, rfl⟩
  nodup := by
    intro c' hc'
    obtain ⟨i, c, -, rfl⟩ := mem_link.1 hc'
    exact ⟨Fields.nodup_eraseDups _, Fields.nodup_eraseDups _⟩
  irreflexive := by
    intro c' hc'
    constructor
    · intro hself
      exact not_calls_self (exists_callers_iff.1 ⟨c', hc', rfl, hself⟩)
    · intro hself
      exact not_calls_self (exists_callees_iff.1 ⟨c', hc', rfl, hself⟩)

variable {m : Type → Type} [Monad m] [LawfulMonad m]

theorem linkWith_eq_map (lookup : MethodChunk → m (List Location)) (skip : MethodChunk → m Unit)
    (chunks : List MethodChunk) :
    linkWith lookup skip chunks = link chunks <$> collect lookup skip chunks := by
  simp [linkWith]

/-- **Callers and callees describe one and the same graph.** Whatever is answered about the
references, what is listed on the one side is listed on the other; all names are names of methods;
no list holds a name twice or the method's own. The callees of a method are the names of the methods
that the references belonging to it are to, each where it first occurs when the references are taken
by the number of the method that they are to and then by their own. -/
theorem linkWith_one_graph (lookup : MethodChunk → m (List Location)) (skip : MethodChunk → m Unit)
    (chunks : List MethodChunk) :
    linkWith lookup skip chunks = link chunks <$> collect lookup skip chunks ∧
    ∀ refs : List (List Location), OneGraph chunks (link chunks refs) ∧
      ∀ j c, (link chunks refs)[j]? = some c →
        ∃ uses : List (Nat × Nat), uses.Pairwise (Prod.Lex (· < ·) (· < ·)) ∧
          (∀ p, p ∈ uses ↔ UsedBy chunks refs j p) ∧
          c.dependencies =
            (uses.filterMap fun p => chunks[p.1]?.map MethodChunk.qualifiedName).eraseDups := by
  refine ⟨linkWith_eq_map lookup skip chunks, fun refs => ⟨link_oneGraph, fun j c' hc' => ?_⟩⟩
  rw [link_getElem?] at hc'
  obtain ⟨c, -, rfl⟩ := Option.map_eq_some_iff.1 hc'
  exact ⟨uses chunks refs j, pairwise_uses, fun p => mem_uses, calleesOf_edges⟩

end Graph

/-- Two overloads of a method and a method that calls both. -/
def overloads : List MethodChunk :=
  [sampleMethod "f" 0 2 (some ⟨⟨0, 5⟩, ⟨0, 6⟩⟩), sampleMethod "f" 3 4 (some ⟨⟨3, 5⟩, ⟨3, 6⟩⟩),
    sampleMethod "g" 5 7 (some ⟨⟨5, 5⟩, ⟨5, 6⟩⟩)]

/-- A use on a line of the file that the methods are in. -/
def useOn (line : Nat) : Location :=
  ⟨"file:///A.java", ⟨⟨line, 2⟩, ⟨line, 3⟩⟩⟩

/-- The last method uses both overloads, the second overload uses the first one, and that one uses
the last method. -/
def overloadRefs : List (List Location) :=
  [[useOn 6, useOn 4], [useOn 7], [useOn 1]]

/-- The references to one of the overloads or to the method that calls them. -/
def overloadLookup (c : MethodChunk) : Option (List Location) :=
  overloadRefs[overloads.idxOf c]?

theorem collect_overloads :
    collect overloadLookup (fun _ => some ()) overloads = some overloadRefs := by
  decide +kernel

/-- The overloads have one name in the lists of the others. -/
theorem linkWith_overloads :
    linkWith overloadLookup (fun _ => some ()) overloads = some (link overloads overloadRefs) ∧
      OneGraph overloads (link overloads overloadRefs) ∧
      (link overloads overloadRefs).map (fun c => (c.calledBy, c.dependencies)) =
        ([(["A::g"], ["A::g"]), (["A::g"], []), (["A::f"], ["A::f"])] :
          List (List Text × List Text)) := by
  have h := linkWith_one_graph overloadLookup (fun _ => some ()) overloads
  refine ⟨h.1.trans ?_, (h.2 overloadRefs).1, by decide +kernel⟩
  rw [collect_overloads]
  rfl

/-! ## Calls that only one method can have made -/

section LoneUse

variable {chunks : List MethodChunk} {refs : List (List Location)}

/-- The lines of the method contain those of the reference. -/
def Contains (c : MethodChunk) (r : Location) : Prop :=
  ∃ place range, c.location = some place ∧ place.range = some range ∧ place.uri = r.uri ∧
    range.start.line ≤ r.range.start.line ∧ r.range.stop.line ≤ range.stop.line

/-- A reference to `target`, the method with number `i`, which is not its declaration and which the
lines of `caller`, the method with number `j`, contain and those of no other method. -/
structure LoneUse (chunks : List MethodChunk) (refs : List (List Location)) (i j : Nat)
    (target caller : MethodChunk) (r : Location) : Prop where
  callee_mem : chunks[i]? = some target
  answered : ∃ rs, refs[i]? = some rs ∧ r ∈ rs
  use : ¬ Declares target r
  caller_mem : chunks[j]? = some caller
  contained : Contains caller r
  alone : ∀ k other, chunks[k]? = some other → Contains other r → k = j

variable {i j : Nat} {target caller : MethodChunk} {r : Location}

/-- The methods whose lines contain the reference are looked through. -/
theorem loneUse_of_filter_eq {rs : List Location} (hcallee : chunks[i]? = some target)
    (hrs : refs[i]? = some rs) (hr : r ∈ rs) (huse : isDeclaration target r = false)
    (honly : (chunks.zipIdx.filter fun x => encloses x.1 r) = [(caller, j)]) :
    LoneUse chunks refs i j target caller r := by
  have hcontains : ∀ k other, chunks[k]? = some other ∧ Contains other r ↔
      other = caller ∧ k = j := by
    intro k other
    have hmem : (other, k) ∈ chunks.zipIdx.filter (fun x => encloses x.1 r) ↔
        chunks[k]? = some other ∧ Contains other r := by
      rw [List.mem_filter, List.mk_mem_zipIdx_iff_getElem?, encloses_eq_true_iff, Contains]
    rw [← hmem, honly, List.mem_singleton, Prod.mk.injEq]
  obtain ⟨hcaller, hcontained⟩ := (hcontains j caller).2 ⟨rfl, rfl⟩
  refine ⟨hcallee, ⟨rs, hrs, hr⟩, ?_, hcaller, hcontained, ?_⟩
  · rw [← isDeclaration_eq_true_iff, huse]
    exact Bool.false_ne_true
  · intro k other hother hcontained'
    exact ((hcontains k other).1 ⟨hother, hcontained'⟩).2

theorem LoneUse.mem_edges (h : LoneUse chunks refs i j target caller r)
    (hname : caller.qualifiedName ≠ target.qualifiedName) : (i, j) ∈ edges chunks refs := by
  obtain ⟨rs, hrs, hr⟩ := h.answered
  refine CallGraph.mem_edges.2 ⟨target, rs, r, caller, h.callee_mem, hrs, hr, h.use, h.caller_mem,
    ⟨hname, h.contained⟩, ?_⟩
  intro k hk other hother hholds
  have hsame := h.alone k other hother hholds.2
  omega

/-- **A call is listed unless it is made by an overload.** A reference that is not the declaration
and that only one method can hold puts that method among the callers, and the method that it is to
among the callees, just if the two have different names: not only the calls that a method makes to
itself are left out, but also those that a method makes to another one of the same name. -/
theorem linkWith_lone_use {m : Type → Type} [Monad m] [LawfulMonad m]
    (lookup : MethodChunk → m (List Location)) (skip : MethodChunk → m Unit)
    (chunks : List MethodChunk) :
    linkWith lookup skip chunks = link chunks <$> collect lookup skip chunks ∧
    ∀ refs i j target caller r, LoneUse chunks refs i j target caller r →
      ∃ target' caller', (link chunks refs)[i]? = some target' ∧
        (link chunks refs)[j]? = some caller' ∧
        (caller.qualifiedName ∈ target'.calledBy ↔
          caller.qualifiedName ≠ target.qualifiedName) ∧
        (target.qualifiedName ∈ caller'.dependencies ↔
          caller.qualifiedName ≠ target.qualifiedName) := by
  refine ⟨linkWith_eq_map lookup skip chunks, fun refs i j target caller r h => ?_⟩
  have htarget : (link chunks refs)[i]? = some (linked chunks (edges chunks refs) i target) := by
    rw [link_getElem?, h.callee_mem, Option.map_some]
  have hcaller : (link chunks refs)[j]? = some (linked chunks (edges chunks refs) j caller) := by
    rw [link_getElem?, h.caller_mem, Option.map_some]
  refine ⟨_, _, htarget, hcaller, ⟨?_, ?_⟩, ⟨?_, ?_⟩⟩
  · -- no method is among its own callers, under whatever number
    intro hlisted hname
    have hown := (link_oneGraph.irreflexive _ (List.mem_of_getElem? htarget)).1
    rw [hname] at hlisted
    exact hown hlisted
  · intro hname
    exact mem_callersOf.2 ⟨_, h.mem_edges hname, rfl, caller, h.caller_mem, rfl⟩
  · intro hlisted hname
    have hown := (link_oneGraph.irreflexive _ (List.mem_of_getElem? hcaller)).2
    rw [← hname] at hlisted
    exact hown hlisted
  · intro hname
    exact mem_calleesOf.2 ⟨_, h.mem_edges hname, rfl, target, h.callee_mem, rfl⟩

end LoneUse

/-- The last method is the only one that can use the first on line 6, and it is listed. -/
theorem linkWith_lone_use_overloads :
    LoneUse overloads overloadRefs 0 2 overloads[0] overloads[2] (useOn 6) ∧
      ∃ target' caller', (link overloads overloadRefs)[0]? = some target' ∧
        (link overloads overloadRefs)[2]? = some caller' ∧
        overloads[2].qualifiedName ∈ target'.calledBy ∧
        overloads[0].qualifiedName ∈ caller'.dependencies := by
  have huse : LoneUse overloads overloadRefs 0 2 overloads[0] overloads[2] (useOn 6) :=
    loneUse_of_filter_eq rfl rfl (by decide +kernel) (by decide +kernel) (by decide +kernel)
  obtain ⟨-, hlisted⟩ := linkWith_lone_use overloadLookup (fun _ => some ()) overloads
  obtain ⟨target', caller', htarget, hcaller, hcallers, hcallees⟩ := hlisted _ _ _ _ _ _ huse
  have hname : overloads[2].qualifiedName ≠ overloads[0].qualifiedName := by decide +kernel
  exact ⟨huse, target', caller', htarget, hcaller, hcallers.2 hname, hcallees.2 hname⟩

/-- The second overload is another method than the first and the only one that can use it on line
4, and that call is listed nowhere. -/
theorem overload_call_lost :
    LoneUse overloads overloadRefs 0 1 overloads[0] overloads[1] (useOn 4) ∧
      overloads[1] ≠ overloads[0] ∧
      linkWith overloadLookup (fun _ => some ()) overloads = some (link overloads overloadRefs) ∧
      ∃ target' caller', (link overloads overloadRefs)[0]? = some target' ∧
        (link overloads overloadRefs)[1]? = some caller' ∧
        overloads[1].qualifiedName ∉ target'.calledBy ∧
        overloads[0].qualifiedName ∉ caller'.dependencies := by
  have huse : LoneUse overloads overloadRefs 0 1 overloads[0] overloads[1] (useOn 4) :=
    loneUse_of_filter_eq rfl rfl (by decide +kernel) (by decide +kernel) (by decide +kernel)
  have hlinked : linkWith overloadLookup (fun _ => some ()) overloads =
      some (link overloads overloadRefs) := by
    rw [linkWith_eq_map, collect_overloads]
    rfl
  refine ⟨huse, by decide +kernel, hlinked, _, _, link_getElem? 0, link_getElem? 1, ?_, ?_⟩
  · decide +kernel
  · decide +kernel

end SymbolAtlas.CallGraph
