import SymbolAtlas.Proofs.Rpc.Pushes
import SymbolAtlas.Proofs.Rpc.Schedule

/-!
# Which request a response completes

A response completes the pending request that its id means, and a response whose id means none is
dropped. The number of a request means it. So does one more value: where an integer is expected a
boolean is counted as one, so `true` means the first request.

* `Interleaving.Means` — the values that mean a request, with `Interleaving.means_iff`;
* `Interleaving.take_means` — what is taken out of the call table;
* `Interleaving.responses_matched` — what comes of a response, in any use of a connection and in any
  schedule of its threads.
-/

namespace SymbolAtlas.Interleaving

open Connection

variable {σ : Type} {w w' : World} {c : Connection σ} {m : Json.Object}

/-- The values of an id that mean a request. -/
inductive Means : Json → Nat → Prop
  | number (k : Nat) : Means (.int k) k
  /-- A boolean is counted as an integer, and the first request has the number one. -/
  | flag : Means (.bool true) 1

theorem means_iff {id : Json} {k : Nat} (hk : 1 ≤ k) : id.asInt? = some (k : Int) ↔ Means id k := by
  constructor
  · intro h
    cases id with
    | int n =>
      obtain rfl : n = k := Option.some.inj h
      exact .number k
    | bool b =>
      have hb : (if b then (1 : Int) else 0) = k := Option.some.inj h
      cases b with
      | true =>
        obtain rfl : k = 1 := Int.ofNat.inj hb.symm
        exact .flag
      | false =>
        simp at hb
        omega
    | _ => cases h
  · rintro (_ | _) <;> rfl

/-- The request that the id means is taken, if it is pending; otherwise none is. -/
theorem take_means {t : CallTable} (hpos : ∀ k ∈ t.pending, 1 ≤ k) (id : Json) :
    (∃ k ∈ t.pending, Means id k ∧
      t.take id = some (k, { t with pending := t.pending.erase k })) ∨
    (∀ k ∈ t.pending, ¬ Means id k) ∧ t.take id = none := by
  cases htake : t.take id with
  | none =>
    refine .inr ⟨fun k hk hmeans => ?_, rfl⟩
    exact CallTable.asInt?_ne_of_take_eq_none htake hk ((means_iff (hpos k hk)).2 hmeans)
  | some r =>
    obtain ⟨k, u⟩ := r
    obtain ⟨hk, hint, rfl⟩ := CallTable.take_eq_some htake
    exact .inl ⟨k, hk, (means_iff (hpos k hk)).1 hint, rfl⟩

theorem Inv.pending_pos (hi : Inv w) : ∀ k ∈ w.calls.pending, 1 ≤ k := by
  intro k hk
  have hnumber := hi.mem_numbers_of_pending hk
  rw [hi.numbers, List.mem_range'_1] at hnumber
  exact hnumber.1

theorem Used.pending_pos (h : Used c) : ∀ k ∈ c.calls.pending, 1 ≤ k := by
  obtain ⟨w, hw, hshows⟩ := h.exists_world
  rw [← hshows.calls]
  exact hw.inv.pending_pos

/-- The request has been completed by the message, and by nothing else. -/
structure Completes (c : Connection σ) (k : Nat) (m : Json.Object) (d : Connection σ) : Prop where
  pending : k ∈ c.calls.pending
  calls : d.calls = { c.calls with pending := c.calls.pending.erase k }
  settled : d.settled = c.settled ++ [(k, outcomeOf m)]

theorem resolve_means (hpos : ∀ k ∈ c.calls.pending, 1 ≤ k) {id : Json}
    (hid : Json.fieldOrNull m "id" = id) :
    (∃ k, Means id k ∧ Completes c k m (c.resolve m)) ∨
    (∀ k ∈ c.calls.pending, ¬ Means id k) ∧
      (c.resolve m).calls = c.calls ∧ (c.resolve m).settled = c.settled := by
  unfold resolve
  rw [hid]
  dsimp only
  obtain ⟨k, hk, hmeans, htake⟩ | ⟨hnone, htake⟩ := take_means hpos id <;> rw [htake]
  · exact .inl ⟨k, hmeans, hk, rfl, rfl⟩
  · exact .inr ⟨hnone, rfl, rfl⟩

/-- A response is handled by the request that its id means. -/
theorem Used.dispatch_means (h : Used c)
    (hm : ∀ method, Fields.get? m "method" ≠ some (.str method)) :
    (∃ id k, Fields.get? m "id" = some id ∧ Means id k ∧ Completes c k m (c.dispatch m).2) ∨
    (∀ id, Fields.get? m "id" = some id → ∀ k ∈ c.calls.pending, ¬ Means id k) ∧
      (c.dispatch m).2.calls = c.calls ∧ (c.dispatch m).2.settled = c.settled := by
  have herrand : errand m = (Fields.get? m "id").elim .unknown .response := by
    unfold errand
    split
    · next method _ hmethod _ => exact absurd hmethod (hm method)
    · next method hmethod _ => exact absurd hmethod (hm method)
    · next hid _ =>
      rw [hid]
      rfl
    · next hid _ =>
      rw [hid]
      rfl
  rw [dispatch_eq, herrand]
  cases hget : Fields.get? m "id" with
  | none => exact .inr ⟨fun _ hid => (by cases hid), rfl, rfl⟩
  | some id =>
    have hid : Json.fieldOrNull m "id" = id := by simp [Json.fieldOrNull, hget]
    obtain ⟨k, hmeans, hcompletes⟩ | ⟨hnone, hcalls, hsettled⟩ := resolve_means h.pending_pos hid
    · exact .inl ⟨id, k, rfl, hmeans, hcompletes⟩
    · refine .inr ⟨fun id' hid' => ?_, hcalls, hsettled⟩
      obtain rfl := Option.some.inj hid'
      exact hnone

/-- What the next step of the listener makes of a response that it was handed. -/
theorem Reachable.step_means (hw : Reachable w) (hplace : w.place .listener = .answered m)
    (hstep : Step w w') :
    w'.place .listener = .answered m ∨
    (∃ k ∈ w.calls.pending, Means (Json.fieldOrNull m "id") k ∧
      w' = w.act .listener (.resolving k m)
        { w.calls with pending := w.calls.pending.erase k } (.took k m)) ∨
    (∀ k ∈ w.calls.pending, ¬ Means (Json.fieldOrNull m "id") k) ∧ w' = w.go .listener .free := by
  have hpos := hw.inv.pending_pos
  cases hstep with
  | @quiet t p hquiet =>
    cases t with
    | client => exact .inl (by simpa using hplace)
    | listener =>
      cases hquiet with
      | unknown message h hnone =>
        obtain rfl : m = message := by simpa [hplace] using h
        obtain ⟨k, -, -, htake⟩ | ⟨hnone', -⟩ :=
          take_means hpos (Json.fieldOrNull m "id")
        · rw [htake] at hnone
          cases hnone
        · exact .inr (.inr ⟨hnone', rfl⟩)
      | _ => simp_all
  | take message h htake =>
    obtain rfl : m = message := by simpa [hplace] using h
    obtain ⟨k, hk, hmeans, htake'⟩ | ⟨-, hnone⟩ := take_means hpos (Json.fieldOrNull m "id")
    · obtain ⟨rfl, rfl⟩ := Prod.mk.inj (Option.some.inj (htake'.symm.trans htake))
      exact .inr (.inl ⟨k, hk, hmeans, rfl⟩)
    · rw [htake] at hnone
      cases hnone
  | complete k message h => simp [hplace] at h
  | request => exact .inl (by simpa using hplace)
  | write t | shut t | giveUp t | passOver t => cases t <;> simp_all

/-- **A response completes the request that its id means, and none but that one.** However a
connection was used, a message without a method either completes the one pending request that its id
means, with the outcome that it states, or no pending request is meant, and nothing is completed or
taken out of the table.

It is so in every schedule of the two threads as well: the listener that was handed a response goes
on by taking the request that the id means, or finds none and does nothing; and what was completed
with anything but a loss was taken for such a response before. -/
theorem responses_matched :
    (∀ (c : Connection σ) (m : Json.Object), Used c →
      (∀ method, Fields.get? m "method" ≠ some (.str method)) →
      (∃ id k, Fields.get? m "id" = some id ∧ Means id k ∧ Completes c k m (c.dispatch m).2) ∨
      (∀ id, Fields.get? m "id" = some id → ∀ k ∈ c.calls.pending, ¬ Means id k) ∧
        (c.dispatch m).2.calls = c.calls ∧ (c.dispatch m).2.settled = c.settled) ∧
    (∀ (w w' : World) (m : Json.Object), Reachable w → w.place .listener = .answered m →
      Step w w' →
      w'.place .listener = .answered m ∨
      (∃ k ∈ w.calls.pending, Means (Json.fieldOrNull m "id") k ∧
        w' = w.act .listener (.resolving k m)
          { w.calls with pending := w.calls.pending.erase k } (.took k m)) ∨
      (∀ k ∈ w.calls.pending, ¬ Means (Json.fieldOrNull m "id") k) ∧
        w' = w.go .listener .free) ∧
    ∀ (w : World), Reachable w → ∀ before after (k : Nat) o,
      w.history = before ++ .completed k o :: after → (∀ l, o ≠ .lost l) →
      ∃ m, .took k m ∈ before ∧ Means (Json.fieldOrNull m "id") k ∧ o = outcomeOf m := by
  refine ⟨fun c m h hm => h.dispatch_means hm,
    fun w w' m hw hplace hstep => hw.step_means hplace hstep,
    fun w hw before after k o heq ho => ?_⟩
  obtain ⟨reason, -, hlost⟩ | ⟨m, htook, hint, hout⟩ := hw.inv.justified before after k o heq
  · exact absurd hlost (ho _)
  · have htaken : k ∈ w.taken := by
      rw [World.taken, heq, List.filterMap_append]
      exact List.mem_append_left _ (List.mem_filterMap.2 ⟨_, htook, rfl⟩)
    have hnumber := (hw.inv.taken k htaken).1
    rw [hw.inv.numbers, List.mem_range'_1] at hnumber
    exact ⟨m, htook, (means_iff hnumber.1).1 hint, hout⟩

/-- A connection with one request under way. -/
def asking : Connection Unit :=
  (Connection.sendRequest { name := defaultName, handlers := {}, owner := () }
    "textDocument/documentSymbol" none).2

theorem used_asking : Used asking :=
  .sendRequest _ _ (.new ..)

/-- The number of the request, and an answer that belongs to it. -/
def numberedAnswer : Json.Object :=
  [("id", .int 1), ("result", .arr [])]

/-- The number of the request completes it. -/
theorem number_completes :
    Used asking ∧ (∀ method, Fields.get? numberedAnswer "method" ≠ some (.str method)) ∧
      Completes asking 1 numberedAnswer (asking.dispatch numberedAnswer).2 := by
  have hmethod : ∀ method, Fields.get? numberedAnswer "method" ≠ some (.str method) := by
    intro method h
    have hnone : Fields.get? numberedAnswer "method" = none := by decide
    rw [hnone] at h
    cases h
  refine ⟨used_asking, hmethod, ?_⟩
  obtain ⟨id, k, hget, hmeans, hcompletes⟩ | ⟨hnone, -, -⟩ :=
    responses_matched.1 asking numberedAnswer used_asking hmethod
  · have hid : Fields.get? numberedAnswer "id" = some (.int 1) := rfl
    obtain rfl := Option.some.inj (hget.symm.trans hid)
    cases hmeans
    exact hcompletes
  · exact absurd (Means.number 1) (hnone (.int 1) rfl 1 (by decide +kernel))

/-- The word `true`, and what belongs to no request. -/
def strayAnswer : Json.Object :=
  [("id", .bool true), ("result", .arr [.str "stray"])]

/-- An id that is no integer completes the first request. -/
theorem flag_completes :
    Used asking ∧ Fields.get? strayAnswer "method" = none ∧
      Fields.get? strayAnswer "id" = some (.bool true) ∧
      asking.outcome? 1 = none ∧ asking.calls.pending = [1] ∧
      (asking.dispatch strayAnswer).2.outcome? 1 = some (.result (.arr [.str "stray"])) ∧
      (asking.dispatch strayAnswer).2.calls.pending = [] := by
  refine ⟨used_asking, by decide, rfl, ?_, ?_, ?_, ?_⟩
  · rfl
  · decide +kernel
  · rfl
  · decide +kernel

end SymbolAtlas.Interleaving
