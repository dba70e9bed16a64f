import SymbolAtlas.Chunks.Callers

/-!
# References and their callers

What becomes of the references to the methods of a repository. Each method that has a selection
range is asked about once, in order, and no other. A reference belongs to the first other method
whose lines contain it, unless it is the declaration itself, and the callers of a method are those
that its references belong to.

* `CallGraph.Declares`, `CallGraph.CanHold` — what a reference can be to a method;
* `CallGraph.CalledFrom` — the method that a reference belongs to, with
  `CallGraph.caller?_eq_some_iff`;
* `CallGraph.placed` — the answers in the places of their methods, with `CallGraph.run_collect`;
* `CallGraph.linkWith_attributes` — the whole.
-/

namespace SymbolAtlas.CallGraph

open Lsp

/-! ## Owners of references -/

/-- The reference is where the method is declared. -/
def Declares (target : MethodChunk) (r : Location) : Prop :=
  ∃ place selection, target.location = some place ∧ place.selection = some selection ∧
    r.uri = place.uri ∧ r.range.start = selection.start

/-- The reference to `target` may belong to the method: it is another one by its name, and its
lines contain those of the reference. -/
def CanHold (target caller : MethodChunk) (r : Location) : Prop :=
  caller.qualifiedName ≠ target.qualifiedName ∧
    ∃ place range, caller.location = some place ∧ place.range = some range ∧ place.uri = r.uri ∧
      range.start.line ≤ r.range.start.line ∧ r.range.stop.line ≤ range.stop.line

/-- The reference to `target` belongs to `caller`, the method with number `j`. -/
structure CalledFrom (chunks : List MethodChunk) (target : MethodChunk) (r : Location) (j : Nat)
    (caller : MethodChunk) : Prop where
  use : ¬ Declares target r
  member : chunks[j]? = some caller
  holds : CanHold target caller r
  /-- No method before it may have the reference. -/
  first : ∀ k < j, ∀ other, chunks[k]? = some other → ¬ CanHold target other r

section Owners

variable {chunks : List MethodChunk} {target caller : MethodChunk} {r : Location}

theorem isDeclaration_eq_true_iff : isDeclaration target r = true ↔ Declares target r := by
  unfold isDeclaration Declares
  obtain _ | ⟨uri, range, _ | selection⟩ := target.location <;> simp

theorem encloses_eq_true_iff :
    encloses caller r = true ↔
      ∃ place range, caller.location = some place ∧ place.range = some range ∧
        place.uri = r.uri ∧ range.start.line ≤ r.range.start.line ∧
          r.range.stop.line ≤ range.stop.line := by
  unfold encloses
  obtain _ | ⟨uri, _ | range, selection⟩ := caller.location <;> simp [and_assoc]

theorem canHold_iff :
    (caller.qualifiedName != target.qualifiedName && encloses caller r) = true ↔
      CanHold target caller r := by
  rw [Bool.and_eq_true, bne_iff_ne, encloses_eq_true_iff, CanHold]

/-- The number that is found is that of the method that the reference belongs to. -/
theorem caller?_eq_some_iff {j : Nat} :
    caller? chunks target r = some j ↔ ∃ caller, CalledFrom chunks target r j caller := by
  unfold caller?
  split
  · next hdeclares =>
    rw [isDeclaration_eq_true_iff] at hdeclares
    simp only [reduceCtorEq, false_iff]
    rintro ⟨caller, hcaller⟩
    exact hcaller.use hdeclares
  · next huse =>
    rw [isDeclaration_eq_true_iff] at huse
    rw [List.findIdx?_eq_some_iff_getElem]
    constructor
    · rintro ⟨hj, hholds, hfirst⟩
      refine ⟨chunks[j], huse, List.getElem?_eq_getElem hj, canHold_iff.1 hholds, ?_⟩
      intro k hk other hother hholds'
      obtain ⟨hlt, rfl⟩ := List.getElem?_eq_some_iff.1 hother
      exact hfirst k hk (canHold_iff.2 hholds')
    · rintro ⟨caller, hcaller⟩
      obtain ⟨hj, rfl⟩ := List.getElem?_eq_some_iff.1 hcaller.member
      refine ⟨hj, canHold_iff.2 hcaller.holds, fun k hk hholds' => ?_⟩
      exact hcaller.first k hk _ (List.getElem?_eq_getElem _) (canHold_iff.1 hholds')

end Owners

/-- The qualified name of the method that the reference to `target` belongs to. -/
def callerName? (chunks : List MethodChunk) (target : MethodChunk) (r : Location) : Option Text :=
  (caller? chunks target r).bind fun j => chunks[j]?.map MethodChunk.qualifiedName

theorem callerName?_eq_some_iff {chunks : List MethodChunk} {target : MethodChunk} {r : Location}
    {name : Text} :
    callerName? chunks target r = some name ↔
      ∃ j caller, CalledFrom chunks target r j caller ∧ caller.qualifiedName = name := by
  rw [callerName?, Option.bind_eq_some_iff]
  constructor
  · rintro ⟨j, hj, hname⟩
    obtain ⟨caller, hcaller⟩ := caller?_eq_some_iff.1 hj
    rw [hcaller.member] at hname
    exact ⟨j, caller, hcaller, Option.some.inj hname⟩
  · rintro ⟨j, caller, hcaller, rfl⟩
    exact ⟨j, caller?_eq_some_iff.2 ⟨caller, hcaller⟩, by rw [hcaller.member]; rfl⟩

/-! ## The edges of one method -/

section Edges

variable {α : Type} (row : α → List Nat)

/-- The entries of all rows, each with the number of its row. -/
def numbered (as : List α) (k : Nat) : List Edge :=
  ((as.zipIdx k).map fun (a, n) => (row a).map fun j => (n, j)).flatten

theorem numbered_cons (a : α) (as : List α) (k : Nat) :
    numbered row (a :: as) k = (row a).map (fun j => (k, j)) ++ numbered row as (k + 1) := rfl

/-- The entry of an edge, if it has the number. -/
def entryAt (n : Nat) (e : Edge) : Option Nat :=
  if e.1 = n then some e.2 else none

/-- The numbers begin with the given one. -/
theorem le_of_mem_numbered {as : List α} {k : Nat} {e : Edge} (h : e ∈ numbered row as k) :
    k ≤ e.1 := by
  obtain ⟨l, hl, he⟩ := List.mem_flatten.1 h
  obtain ⟨⟨a, n⟩, ha, rfl⟩ := List.mem_map.1 hl
  obtain ⟨j, -, rfl⟩ := List.mem_map.1 he
  exact List.le_snd_of_mem_zipIdx ha

theorem filterMap_entryAt_of_lt {as : List α} {n k : Nat} (h : n < k) :
    (numbered row as k).filterMap (entryAt n) = [] := by
  refine List.filterMap_eq_nil_iff.2 fun e he => if_neg ?_
  have hle := le_of_mem_numbered row he
  omega

/-- The entries with the number of a row are those of that row. -/
theorem filterMap_entryAt {as : List α} {i : Nat} {a : α} (h : as[i]? = some a) (k : Nat) :
    (numbered row as k).filterMap (entryAt (k + i)) = row a := by
  induction as generalizing k i with
  | nil => simp at h
  | cons b as ih =>
    rw [numbered_cons, List.filterMap_append, List.filterMap_map]
    -- the first row has the number `k`, and the others have greater ones
    cases i with
    | zero =>
      obtain rfl : b = a := by simpa using h
      have hown : (entryAt (k + 0) ∘ fun j => (k, j)) = some := funext fun j => if_pos rfl
      rw [hown, List.filterMap_some, filterMap_entryAt_of_lt row (by omega), List.append_nil]
    | succ i =>
      have hother : (row b).filterMap (entryAt (k + (i + 1)) ∘ fun j => (k, j)) = [] :=
        List.filterMap_eq_nil_iff.2 fun j _ => if_neg (by simp)
      have hnext := ih (by simpa using h) (k + 1)
      rw [hother, List.nil_append]
      rwa [show k + (i + 1) = k + 1 + i by omega]

end Edges

section Callers

variable {chunks : List MethodChunk} {refs : List (List Location)} {i : Nat} {c : MethodChunk}
  {rs : List Location}

/-- The callers of a method are those that its references belong to, each once. -/
theorem callersOf_edges (hc : chunks[i]? = some c) (hrs : refs[i]? = some rs) :
    callersOf chunks (edges chunks refs) i = (rs.filterMap (callerName? chunks c)).eraseDups := by
  have hrow : (chunks.zip refs)[i]? = some (c, rs) := by
    rw [List.getElem?_zip_eq_some]
    exact ⟨hc, hrs⟩
  have hnumbers : (edges chunks refs).filterMap (entryAt i) = rs.filterMap (caller? chunks c) := by
    have h := filterMap_entryAt
      (fun p : MethodChunk × List Location => p.2.filterMap (caller? chunks p.1)) hrow 0
    rwa [Nat.zero_add] at h
  change namesOf chunks ((edges chunks refs).filterMap (entryAt i)) = _
  rw [hnumbers, namesOf, List.filterMap_filterMap]
  rfl

/-- What linking makes of one method. -/
theorem getElem?_link (hc : chunks[i]? = some c) (hrs : refs[i]? = some rs) :
    ∃ c', (link chunks refs)[i]? = some c' ∧
      { c' with calledBy := c.calledBy, dependencies := c.dependencies } = c ∧
      c'.calledBy = (rs.filterMap (callerName? chunks c)).eraseDups := by
  refine ⟨{ c with
    calledBy := callersOf chunks (edges chunks refs) i
    dependencies := calleesOf chunks (edges chunks refs) i }, ?_, rfl, callersOf_edges hc hrs⟩
  simp [link, List.getElem?_map, List.getElem?_zipIdx, hc]

end Callers

/-! ## Asking for references -/

/-- Whether a method is asked about: it has a selection range. -/
def isAsked (c : MethodChunk) : Bool :=
  c.selection?.isSome

/-- The answers in the places of the methods they are about, the methods that are not asked about
having no references. -/
def placed : List MethodChunk → List (List Location) → List (List Location)
  | [], _ => []
  | c :: cs, answers =>
    if isAsked c then answers.headD [] :: placed cs answers.tail else [] :: placed cs answers

/-- The references to a method are the answer to its question. -/
theorem getElem?_placed {chunks : List MethodChunk} {i : Nat} {c : MethodChunk}
    (hc : chunks[i]? = some c) (answers : List (List Location)) :
    (placed chunks answers)[i]? =
      some (if isAsked c then answers.getD ((chunks.take i).countP isAsked) [] else []) := by
  induction chunks generalizing i answers with
  | nil => simp at hc
  | cons b chunks ih =>
    cases i with
    | zero =>
      obtain rfl : b = c := by simpa using hc
      by_cases hb : isAsked b = true
      · cases answers <;> simp [placed, hb]
      · simp [placed, hb]
    | succ i =>
      have hnext := ih (i := i) (by simpa using hc)
      by_cases hb : isAsked b = true
      · rw [placed, if_pos hb, List.getElem?_cons_succ, hnext, List.take_succ_cons,
          List.countP_cons_of_pos hb]
        cases answers <;> simp
      · rw [placed, if_neg hb, List.getElem?_cons_succ, hnext, List.take_succ_cons,
          List.countP_cons_of_neg hb]

/-- The methods that are not asked about are kept on a list. -/
def keepSkipped {m : Type → Type} [Monad m] (c : MethodChunk) : StateT (List MethodChunk) m Unit :=
  modify (· ++ [c])

section Linking

variable {m : Type → Type} [Monad m] [LawfulMonad m]

theorem collect_cons (lookup : MethodChunk → m (List Location)) (skip : MethodChunk → m Unit)
    (c : MethodChunk) (cs : List MethodChunk) :
    collect lookup skip (c :: cs) = (do
      let refs ← collect lookup skip [c]
      let refs' ← collect lookup skip cs
      pure (refs ++ refs')) :=
  collect_append [c] cs

/-- The methods with a selection range are asked about, in order, and the others are skipped. -/
theorem run_collect (lookup : MethodChunk → m (List Location)) (chunks skipped : List MethodChunk) :
    (collect (fun c => liftM (lookup c)) keepSkipped chunks).run skipped =
      (fun answers => (placed chunks answers, skipped ++ chunks.filter (!isAsked ·))) <$>
        (chunks.filter isAsked).mapM lookup := by
  induction chunks generalizing skipped with
  | nil => simp [collect, placed]
  | cons c chunks ih =>
    rw [collect_cons]
    by_cases hc : isAsked c = true
    · rw [collect_of_selection hc]
      simp [ih, placed, hc]
    · have hnone : c.selection? = none := by simpa [isAsked] using hc
      rw [collect_of_no_selection hnone]
      simp [ih, placed, hc, keepSkipped]

/-- **Each reference is attributed to the first other method that contains it, and to no other.**
The methods with a selection range are asked about once, in order, and no others. The methods come
back in their order with nothing changed but callers and callees. The callers of a method are the
names of the methods that its references belong to, each once and in the order in which they first
occur; references that belong to no method add nothing. -/
theorem linkWith_attributes (lookup : MethodChunk → m (List Location))
    (chunks skipped : List MethodChunk) :
    (linkWith (fun c => liftM (lookup c)) keepSkipped chunks).run skipped =
      (fun answers =>
        (link chunks (placed chunks answers), skipped ++ chunks.filter (!isAsked ·))) <$>
        (chunks.filter isAsked).mapM lookup ∧
    ∀ answers : List (List Location),
      (link chunks (placed chunks answers)).length = chunks.length ∧
      ∀ i c, chunks[i]? = some c →
        let refs := if isAsked c then answers.getD ((chunks.take i).countP isAsked) [] else []
        ∃ c' name?, (link chunks (placed chunks answers))[i]? = some c' ∧
          { c' with calledBy := c.calledBy, dependencies := c.dependencies } = c ∧
          (∀ r name, name? r = some name ↔
            ∃ j caller, CalledFrom chunks c r j caller ∧ caller.qualifiedName = name) ∧
          c'.calledBy = (refs.filterMap name?).eraseDups := by
  refine ⟨?_, fun answers => ⟨by simp [link], fun i c hc => ?_⟩⟩
  · rw [linkWith, StateT.run_bind, run_collect]
    simp
  · obtain ⟨c', hc', hrest, hcalled⟩ := getElem?_link hc (getElem?_placed hc answers)
    exact ⟨c', callerName? chunks c, hc', hrest, fun r name => callerName?_eq_some_iff, hcalled⟩

end Linking

/-! ## A sample -/

/-- A method of a file, with the lines it stands in and the place of its name. -/
def sampleMethod (name : String) (first last : Nat) (selection : Option Range) : MethodChunk :=
  { className := "A", methodName := name, returnType := "void", parameters := [], code := ""
    location := some
      { uri := "file:///A.java", range := some ⟨⟨first, 0⟩, ⟨last, 1⟩⟩, selection := selection } }

/-- Two methods and one without a name in its place. -/
def sampleMethods : List MethodChunk :=
  [sampleMethod "f" 0 2 (some ⟨⟨0, 5⟩, ⟨0, 6⟩⟩), sampleMethod "<init>" 3 4 none,
    sampleMethod "g" 5 7 (some ⟨⟨5, 5⟩, ⟨5, 6⟩⟩)]

/-- The first method is declared in one place and used in two, once by itself. -/
def sampleLookup (c : MethodChunk) : Option (List Location) :=
  if c.methodName = ("f" : Text) then
    some [⟨"file:///A.java", ⟨⟨0, 5⟩, ⟨0, 6⟩⟩⟩, ⟨"file:///A.java", ⟨⟨6, 2⟩, ⟨6, 3⟩⟩⟩,
      ⟨"file:///A.java", ⟨⟨1, 2⟩, ⟨1, 3⟩⟩⟩]
  else some []

/-- The first method is called by the last one, and the one between is not asked about. -/
theorem linkWith_sampleMethods :
    (linkWith (fun c => liftM (sampleLookup c)) keepSkipped sampleMethods :
        StateT (List MethodChunk) Option (List MethodChunk)).run [] =
      some ([{ sampleMethod "f" 0 2 (some ⟨⟨0, 5⟩, ⟨0, 6⟩⟩) with calledBy := ["A::g"] },
        sampleMethod "<init>" 3 4 none,
        { sampleMethod "g" 5 7 (some ⟨⟨5, 5⟩, ⟨5, 6⟩⟩) with dependencies := ["A::f"] }],
      [sampleMethod "<init>" 3 4 none]) := by
  refine (linkWith_attributes sampleLookup sampleMethods []).1.trans ?_
  decide +kernel

end SymbolAtlas.CallGraph
