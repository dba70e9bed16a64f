import SymbolAtlas.Json.Basic

/-!
# Calls under way

The requests of a client that have no response yet. Each has a number, counted from one, under
which the response comes back. A table is closed once and for all; then nothing is pending.

Each of the three operations is one step that nothing can come between.

* `CallTable.register` — a new request;
* `CallTable.take` — the request that a response answers, which is no longer pending;
* `CallTable.shut` — the end of all requests.
-/

namespace SymbolAtlas

/-- The requests that have no response yet. -/
structure CallTable where
  /-- The number of the next request. -/
  nextId : Nat := 1
  /-- The numbers of the pending requests, in the order in which they were made. -/
  pending : List Nat := []
  /-- Why the table is closed, if it is. -/
  closed : Option String := none
  deriving DecidableEq, Repr

namespace CallTable

/-- Whether the table is closed. -/
def isClosed (t : CallTable) : Bool :=
  t.closed.isSome

/-- Why the table is closed; empty if it is not. -/
def reason (t : CallTable) : String :=
  t.closed.getD ""

/-- A new request with its number; nothing if the table is closed. -/
def register (t : CallTable) : Option (Nat × CallTable) :=
  if t.isClosed then none
  else some (t.nextId, { t with nextId := t.nextId + 1, pending := t.pending ++ [t.nextId] })

/-- The pending request that the id of a response means. -/
def find? (t : CallTable) (id : Json) : Option Nat :=
  match id.asInt? with
  | some n => t.pending.find? fun k => (k : Int) == n
  | none => none

/-- The pending request that the id of a response means, taken out of the table. -/
def take (t : CallTable) (id : Json) : Option (Nat × CallTable) :=
  (t.find? id).map fun k => (k, { t with pending := t.pending.erase k })

/-- The closed table with the requests that were pending; nothing if it was closed already. -/
def shut (t : CallTable) (reason : String) : Option (List Nat × CallTable) :=
  if t.isClosed then none
  else some (t.pending, { t with closed := some reason, pending := [] })

variable {t u : CallTable} {id : Nat}

theorem isClosed_eq_false_iff : t.isClosed = false ↔ t.closed = none := by
  simp [isClosed]

theorem closed_of_not_isClosed (h : ¬ t.isClosed = true) : t.closed = none :=
  isClosed_eq_false_iff.1 (by simpa using h)

theorem register_eq_none_iff : t.register = none ↔ t.isClosed = true := by
  simp [register]

theorem register_eq_some_iff :
    t.register = some (id, u) ↔ t.closed = none ∧ id = t.nextId ∧
      u = { t with nextId := t.nextId + 1, pending := t.pending ++ [t.nextId] } := by
  by_cases h : t.isClosed = true
  · have hc : t.closed ≠ none := by simpa [isClosed, Option.isSome_iff_ne_none] using h
    simp [register, h, hc]
  · rw [Bool.not_eq_true] at h
    simp [register, h, isClosed_eq_false_iff.1 h, eq_comm]

/-- The request taken was pending, and the id means it. -/
theorem take_eq_some {v : Json} (h : t.take v = some (id, u)) :
    id ∈ t.pending ∧ v.asInt? = some (id : Int) ∧ u = { t with pending := t.pending.erase id } := by
  obtain ⟨k, hk, hu⟩ := Option.map_eq_some_iff.1 h
  obtain ⟨rfl, rfl⟩ := Prod.mk.inj hu
  unfold find? at hk
  split at hk
  · next n hn =>
    have heq := List.find?_some hk
    exact ⟨List.mem_of_find?_eq_some hk, by rw [hn, eq_of_beq heq], rfl⟩
  · cases hk

/-- An id that means no pending request takes none. -/
theorem asInt?_ne_of_take_eq_none {v : Json} (h : t.take v = none) (hid : id ∈ t.pending) :
    v.asInt? ≠ some (id : Int) := by
  intro hv
  have hfind : t.find? v = none := by simpa [take] using h
  unfold find? at hfind
  rw [hv] at hfind
  exact List.find?_eq_none.1 hfind id hid (beq_self_eq_true _)

theorem shut_eq_none_iff {reason : String} : t.shut reason = none ↔ t.isClosed = true := by
  simp [shut]

theorem shut_eq_some_iff {reason : String} {left : List Nat} :
    t.shut reason = some (left, u) ↔ t.closed = none ∧ left = t.pending ∧
      u = { t with closed := some reason, pending := [] } := by
  by_cases h : t.isClosed = true
  · have hc : t.closed ≠ none := by simpa [isClosed, Option.isSome_iff_ne_none] using h
    simp [shut, h, hc]
  · rw [Bool.not_eq_true] at h
    simp [shut, h, isClosed_eq_false_iff.1 h, eq_comm]

end CallTable

end SymbolAtlas
