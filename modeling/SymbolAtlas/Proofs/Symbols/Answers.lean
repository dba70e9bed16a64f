import SymbolAtlas.Proofs.Outcomes
import SymbolAtlas.Symbols.Answer

/-!
# What answers decode to

An answer is worked through twice, element by element: first for objects, then to decode them. Both
times the first element for which there is no result ends it.

* `First` — the number of the first element with a property;
* `eachFrom_eq_ok`, `eachFrom_eq_error` — what a step for each element comes to;
* `Answer.objectsFrom_eq_error`, `Answer.decodeFrom_eq_error` — the element that each pass names;
* `Answer.kind_of_decodeAll` — an answer that cannot be read is the failure of a query;
* `Answer.forall_of_decodeAll` — what holds of every decoded element holds of all that an answer
  decodes to.
-/

namespace SymbolAtlas

/-! ## First elements -/

section First

variable {α : Type} {P : α → Prop} {a : α} {as : List α} {i : Nat}

/-- The element with the number is the first that has the property. -/
structure First (P : α → Prop) (as : List α) (i : Nat) : Prop where
  holds : ∃ a, as[i]? = some a ∧ P a
  before : ∀ j a, j < i → as[j]? = some a → ¬ P a

theorem not_first_nil : ¬ First P [] i := by
  rintro ⟨⟨a, ha, -⟩, -⟩
  simp at ha

theorem first_cons_zero : First P (a :: as) 0 ↔ P a := by
  constructor
  · rintro ⟨⟨b, hb, hP⟩, -⟩
    cases hb
    exact hP
  · intro hP
    exact ⟨⟨a, rfl, hP⟩, fun j b hj => absurd hj (Nat.not_lt_zero j)⟩

theorem first_cons_succ : First P (a :: as) (i + 1) ↔ ¬ P a ∧ First P as i := by
  constructor
  · rintro ⟨hholds, hbefore⟩
    refine ⟨hbefore 0 a (Nat.succ_pos i) rfl, hholds, fun j b hj hb => ?_⟩
    exact hbefore (j + 1) b (Nat.succ_lt_succ hj) hb
  · rintro ⟨ha, hholds, hbefore⟩
    refine ⟨hholds, fun j b hj hb => ?_⟩
    cases j with
    | zero =>
      cases hb
      exact ha
    | succ j => exact hbefore j b (Nat.lt_of_succ_lt_succ hj) hb

theorem first_cons_of_pos (ha : P a) : First P (a :: as) i ↔ i = 0 := by
  cases i with
  | zero => simp [first_cons_zero, ha]
  | succ i => simp [first_cons_succ, ha]

/-- Where the first element lacks the property the numbers are those of the rest and one more. -/
theorem first_cons_of_neg (ha : ¬ P a) : First P (a :: as) i ↔ ∃ j, i = j + 1 ∧ First P as j := by
  cases i with
  | zero => simp [first_cons_zero, ha]
  | succ i => simp [first_cons_succ, ha]

theorem first_map {β : Type} {f : β → α} {bs : List β} :
    First P (bs.map f) i ↔ First (fun b => P (f b)) bs i := by
  constructor
  · rintro ⟨⟨a, ha, hP⟩, hbefore⟩
    rw [List.getElem?_map] at ha
    obtain ⟨b, hb, rfl⟩ := Option.map_eq_some_iff.1 ha
    refine ⟨⟨b, hb, hP⟩, fun j c hj hc => hbefore j (f c) hj ?_⟩
    rw [List.getElem?_map, hc, Option.map_some]
  · rintro ⟨⟨b, hb, hP⟩, hbefore⟩
    refine ⟨⟨f b, by rw [List.getElem?_map, hb, Option.map_some], hP⟩, fun j a hj ha => ?_⟩
    rw [List.getElem?_map] at ha
    obtain ⟨c, hc, rfl⟩ := Option.map_eq_some_iff.1 ha
    exact hbefore j c hj hc

theorem first_congr {Q : α → Prop} (h : ∀ a ∈ as, P a ↔ Q a) : First P as i ↔ First Q as i := by
  constructor
  · rintro ⟨⟨a, ha, hP⟩, hbefore⟩
    refine ⟨⟨a, ha, (h a (List.mem_of_getElem? ha)).1 hP⟩, fun j b hj hb hQ => ?_⟩
    exact hbefore j b hj hb ((h b (List.mem_of_getElem? hb)).2 hQ)
  · rintro ⟨⟨a, ha, hQ⟩, hbefore⟩
    refine ⟨⟨a, ha, (h a (List.mem_of_getElem? ha)).2 hQ⟩, fun j b hj hb hP => ?_⟩
    exact hbefore j b hj hb ((h b (List.mem_of_getElem? hb)).1 hP)

end First

/-! ## Element by element -/

section EachFrom

variable {α β ε : Type} {step : Nat → α → Except ε β} {R : α → β → Prop}

/-- A step for each element of a list, which is told the number of the element. The first step that
fails is the last. -/
def eachFrom (step : Nat → α → Except ε β) : Nat → List α → Except ε (List β)
  | _, [] => .ok []
  | number, a :: as =>
    match step number a with
    | .error e => .error e
    | .ok b => (eachFrom step (number + 1) as).map (b :: ·)

/-- There is no result for the element. -/
def Lacks (R : α → β → Prop) (a : α) : Prop :=
  ¬ ∃ b, R a b

variable (hstep : ∀ number a b, step number a = .ok b ↔ R a b)

include hstep

theorem eachFrom_eq_ok {number : Nat} {as : List α} {bs : List β} :
    eachFrom step number as = .ok bs ↔ List.Forall₂ R as bs := by
  induction as generalizing number bs with
  | nil =>
    rw [eachFrom, List.forall₂_nil_left_iff, Except.ok.injEq]
    exact eq_comm
  | cons a as ih =>
    rw [eachFrom, List.forall₂_cons_left_iff]
    simp only [← hstep number, ← @ih (number + 1)]
    cases step number a with
    | error e => simp
    | ok b =>
      rw [map_eq_ok]
      simp [eq_comm]

/-- The step that fails is that of the first element for which there is no result. -/
theorem eachFrom_eq_error {number : Nat} {as : List α} {e : ε} :
    eachFrom step number as = .error e ↔
      ∃ i, First (Lacks R) as i ∧ ∃ a, as[i]? = some a ∧ step (number + i) a = .error e := by
  induction as generalizing number with
  | nil => simp [eachFrom, not_first_nil]
  | cons a as ih =>
    rw [eachFrom]
    cases ha : step number a with
    | error e' =>
      have hlacks : Lacks R a := by
        rintro ⟨b, hb⟩
        rw [(hstep number a b).2 hb] at ha
        cases ha
      constructor
      · rintro ⟨⟩
        exact ⟨0, (first_cons_of_pos hlacks).2 rfl, a, rfl, ha⟩
      · rintro ⟨i, hi, a', ha', he⟩
        obtain rfl := (first_cons_of_pos hlacks).1 hi
        cases ha'
        exact congrArg _ (Except.error.inj (ha.symm.trans he))
    | ok b =>
      have hreads : ¬ Lacks R a := not_not_intro ⟨b, (hstep number a b).1 ha⟩
      dsimp only
      rw [map_eq_error, ih]
      constructor
      · rintro ⟨i, hi, a', ha', he⟩
        rw [Nat.add_assoc, Nat.add_comm 1] at he
        exact ⟨i + 1, (first_cons_of_neg hreads).2 ⟨i, rfl, hi⟩, a', ha', he⟩
      · rintro ⟨j, hj, a', ha', he⟩
        obtain ⟨i, rfl, hi⟩ := (first_cons_of_neg hreads).1 hj
        rw [Nat.add_comm i, ← Nat.add_assoc] at he
        exact ⟨i, hi, a', ha', he⟩

end EachFrom

namespace Answer

open Lsp

/-- The value is an object. -/
def IsObject (v : Json) : Prop :=
  ∃ fields, v = .obj fields

section Reading

variable {α : Type} {item : Item} {decode : Json.Object → Except Malformed α}

/-- The fields of an element, which must be an object. -/
def objectAt (item : Item) (index : Nat) : Json → Except Failure Json.Object
  | .obj fields => .ok fields
  | _ => .error (.notAnObject item index)

/-- An element decoded, its failure named after its number. -/
def decodeAt (item : Item) (decode : Json.Object → Except Malformed α) (index : Nat)
    (fields : Json.Object) : Except Failure α :=
  (decode fields).mapError (.malformedItem item index)

theorem objectsFrom_eq_eachFrom (index : Nat) (vs : List Json) :
    objectsFrom item index vs = eachFrom (objectAt item) index vs := by
  induction vs generalizing index with
  | nil => rfl
  | cons v vs ih =>
    cases v with
    | obj fields =>
      rw [objectsFrom, ih, eachFrom, objectAt]
      cases eachFrom (objectAt item) (index + 1) vs <;> rfl
    | _ => rfl

theorem decodeFrom_eq_eachFrom (index : Nat) (fs : List Json.Object) :
    decodeFrom item decode index fs = eachFrom (decodeAt item decode) index fs := by
  induction fs generalizing index with
  | nil => rfl
  | cons fields fs ih =>
    rw [decodeFrom, ih, eachFrom, decodeAt]
    cases decode fields with
    | error cause => rfl
    | ok a =>
      cases eachFrom (decodeAt item decode) (index + 1) fs <;> rfl

theorem objectAt_eq_ok (index : Nat) (v : Json) (fields : Json.Object) :
    objectAt item index v = .ok fields ↔ v = .obj fields := by
  cases v <;> simp [objectAt]

theorem objectAt_eq_error {index : Nat} {v : Json} {f : Failure} (h : ¬ IsObject v) :
    objectAt item index v = .error f ↔ f = .notAnObject item index := by
  cases v with
  | obj fields => exact absurd ⟨fields, rfl⟩ h
  | _ => exact ⟨fun he => (Except.error.inj he).symm, fun hf => hf ▸ rfl⟩

theorem decodeAt_eq_ok (index : Nat) (fields : Json.Object) (a : α) :
    decodeAt item decode index fields = .ok a ↔ decode fields = .ok a := by
  cases h : decode fields <;> simp [decodeAt, Except.mapError, h]

theorem decodeAt_eq_error {index : Nat} {fields : Json.Object} {f : Failure} :
    decodeAt item decode index fields = .error f ↔
      ∃ cause, decode fields = .error cause ∧ f = .malformedItem item index cause := by
  cases h : decode fields <;> simp [decodeAt, Except.mapError, h, eq_comm]

theorem objectsFrom_eq_ok {vs : List Json} {fs : List Json.Object} :
    objectsFrom item 0 vs = .ok fs ↔ vs = fs.map Json.obj := by
  rw [objectsFrom_eq_eachFrom, eachFrom_eq_ok objectAt_eq_ok, ← List.forall₂_map_right_iff,
    List.forall₂_eq_eq_eq]

theorem objectsFrom_eq_error {vs : List Json} {f : Failure} :
    objectsFrom item 0 vs = .error f ↔
      ∃ i, First (fun w => ¬ IsObject w) vs i ∧ f = .notAnObject item i := by
  rw [objectsFrom_eq_eachFrom, eachFrom_eq_error objectAt_eq_ok]
  constructor
  · rintro ⟨i, hi, v, hv, hf⟩
    obtain ⟨w, hw, hlacks⟩ := hi.holds
    obtain rfl : v = w := Option.some.inj (hv.symm.trans hw)
    rw [Nat.zero_add] at hf
    exact ⟨i, hi, (objectAt_eq_error hlacks).1 hf⟩
  · rintro ⟨i, hi, hf⟩
    obtain ⟨v, hv, hlacks⟩ := hi.holds
    rw [← Nat.zero_add i] at hf
    exact ⟨i, hi, v, hv, (objectAt_eq_error hlacks).2 hf⟩

theorem decodeFrom_eq_ok {fs : List Json.Object} {as : List α} :
    decodeFrom item decode 0 fs = .ok as ↔
      List.Forall₂ (fun fields a => decode fields = .ok a) fs as := by
  rw [decodeFrom_eq_eachFrom, eachFrom_eq_ok decodeAt_eq_ok]

theorem decodeFrom_eq_error {fs : List Json.Object} {f : Failure} :
    decodeFrom item decode 0 fs = .error f ↔
      ∃ i, First (Lacks fun fields a => decode fields = .ok a) fs i ∧
        ∃ fields cause, fs[i]? = some fields ∧ decode fields = .error cause ∧
          f = .malformedItem item i cause := by
  rw [decodeFrom_eq_eachFrom, eachFrom_eq_error decodeAt_eq_ok]
  simp only [Nat.zero_add, decodeAt_eq_error]
  constructor
  · rintro ⟨i, hi, fields, hfields, cause, hcause, hf⟩
    exact ⟨i, hi, fields, cause, hfields, hcause, hf⟩
  · rintro ⟨i, hi, fields, cause, hfields, hcause, hf⟩
    exact ⟨i, hi, fields, hfields, cause, hcause, hf⟩

/-! ## Answers -/

theorem decodeAll_eq_bind (v : Json) :
    decodeAll item decode v = elements item v >>= decodeFrom item decode 0 := by
  rw [decodeAll]
  cases elements item v <;> rfl

theorem kind_of_elements {v : Json} {f : Failure} (h : elements item v = .error f) :
    f.kind = .query := by
  cases v with
  | null => cases h
  | arr vs =>
    obtain ⟨i, -, rfl⟩ := objectsFrom_eq_error.1 h
    rfl
  | _ =>
    cases h
    rfl

theorem kind_of_decodeAll {v : Json} {f : Failure} (h : decodeAll item decode v = .error f) :
    f.kind = .query := by
  rw [decodeAll_eq_bind, bind_eq_error] at h
  obtain helements | ⟨fs, -, hdecode⟩ := h
  · exact kind_of_elements helements
  · obtain ⟨i, -, fields, cause, -, -, rfl⟩ := decodeFrom_eq_error.1 hdecode
    rfl

theorem forall_of_decodeAll {P : α → Prop} (hdecode : ∀ fields a, decode fields = .ok a → P a)
    {v : Json} {as : List α} (h : decodeAll item decode v = .ok as) : ∀ a ∈ as, P a := by
  rw [decodeAll_eq_bind, bind_eq_ok] at h
  obtain ⟨fs, -, h⟩ := h
  intro a ha
  obtain ⟨fields, hfields⟩ := exists_forall₂_iff.1 ⟨fs, (decodeFrom_eq_ok.1 h).flip⟩ a ha
  exact hdecode fields a hfields

end Reading

end Answer

end SymbolAtlas
