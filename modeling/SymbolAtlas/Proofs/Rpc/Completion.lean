import Mathlib.Data.List.Nodup
import Mathlib.Data.List.Range
import SymbolAtlas.Proofs.Rpc.Interleaving

/-!
# Every request is completed once

Whatever the schedule of the two threads on a connection, each request is at any time in exactly
one of three situations: pending in the table, held by one thread, or completed. The invariant
counts: the occurrences of a number in the table, in the hands of the threads and among the
completed requests are together as many as its occurrences among the numbers handed out
(`Inv.balance`), and these are one, two, three and so on (`Inv.numbers`).

* `Inv` — what holds in every reachable world, and `Step.inv`, that a step preserves it;
* `Steps.closed` — a table that is closed stays closed, for the same reason, and empty;
* `reachable_exactly_once` — the main statement.
-/

namespace SymbolAtlas.Interleaving

variable {w w' : World} {t : Thread} {p : Place} {id : Nat}

/-! ## The parts of a world after a step -/

namespace World

@[simp] theorem numbers_go (w : World) (t : Thread) (p : Place) :
    (w.go t p).numbers = w.numbers := rfl

@[simp] theorem taken_go (w : World) (t : Thread) (p : Place) : (w.go t p).taken = w.taken := rfl

@[simp] theorem completions_go (w : World) (t : Thread) (p : Place) :
    (w.go t p).completions = w.completions := rfl

@[simp] theorem completed_go (w : World) (t : Thread) (p : Place) :
    (w.go t p).completed = w.completed := rfl

theorem numbers_act (w : World) (t : Thread) (p : Place) (c : CallTable) (e : Event) :
    (w.act t p c e).numbers = w.numbers ++ e.number?.toList := by
  cases h : e.number? <;> simp [numbers, h]

theorem taken_act (w : World) (t : Thread) (p : Place) (c : CallTable) (e : Event) :
    (w.act t p c e).taken = w.taken ++ e.taken?.toList := by
  cases h : e.taken? <;> simp [taken, h]

theorem completions_act (w : World) (t : Thread) (p : Place) (c : CallTable) (e : Event) :
    (w.act t p c e).completions = w.completions ++ e.completion?.toList := by
  cases h : e.completion? <;> simp [completions, h]

theorem completed_act (w : World) (t : Thread) (p : Place) (c : CallTable) (e : Event) :
    (w.act t p c e).completed = w.completed ++ (e.completion?.map Prod.fst).toList := by
  cases h : e.completion? <;> simp [completed, completions_act, h]

/-- How often a number occurs in the table, in the hands of the threads and among the completed
requests. -/
def tally (w : World) (id : Nat) : Nat :=
  w.calls.pending.count id + w.held.count id + w.completed.count id

theorem count_held_update {q : Place} (h : w.place t = q) (p : Place) (id : Nat) :
    (w.go t p).held.count id + q.held.count id = w.held.count id + p.held.count id := by
  subst h
  cases t <;> simp [held, List.count_append] <;> omega

/-- A thread that goes from one place to another gives back what it held and holds something
else. -/
theorem tally_go {q : Place} (h : w.place t = q) (p : Place) (id : Nat) :
    (w.go t p).tally id + q.held.count id = w.tally id + p.held.count id := by
  have := count_held_update h p id
  simp only [tally, go_calls, completed_go]
  omega

theorem tally_act {q : Place} (h : w.place t = q) (p : Place) (c : CallTable) (e : Event)
    (id : Nat) :
    (w.act t p c e).tally id + q.held.count id + w.calls.pending.count id =
      w.tally id + p.held.count id + c.pending.count id +
        (e.completion?.map Prod.fst).toList.count id := by
  have hheld := count_held_update h p id
  change (w.act t p c e).held.count id + _ = _ at hheld
  simp only [tally, act_calls, completed_act, List.count_append]
  omega

end World

@[simp] theorem Place.held_after (last : Bool) : (Place.after last).held = [] := by
  cases last <;> rfl

theorem Quiet.held (h : Quiet w t p) : (w.place t).held = [] ∧ p.held = [] := by
  cases h with
  | shutBefore _ _ last h _ | lost _ _ last h => exact ⟨by simp [Place.held, h], by simp⟩
  | _ => simp [Place.held, *]

/-! ## The invariant -/

/-- What has happened before a thread is in a place: a request that it holds for a response was
taken for that response, and whoever gives up requests has closed the table. -/
def Place.Backed (history : List Event) : Place → Prop
  | .resolving id m =>
    .took id m ∈ history ∧ (Json.fieldOrNull m "id").asInt? = some (id : Int)
  | .losing _ reason _ => .shut reason ∈ history
  | _ => True

theorem Place.Backed.mono {es : List Event} (h : p.Backed es) (e : Event) :
    p.Backed (es ++ [e]) := by
  cases p with
  | resolving id m => exact ⟨List.mem_append_left _ h.1, h.2⟩
  | losing left reason last => exact List.mem_append_left _ h
  | _ => trivial

theorem Quiet.backed (h : Quiet w t p) (es : List Event) : p.Backed es := by
  cases h with
  | shutBefore _ _ last _ _ | lost _ _ last _ => cases last <;> trivial
  | _ => trivial

/-- Why a request may have been completed: the table was closed, or a response took the request
out of the table, the id of the response being its number. -/
def Justified (before : List Event) (id : Nat) (o : Outcome) : Prop :=
  (∃ reason, .shut reason ∈ before ∧ o = .lost (.aborted id reason)) ∨
    ∃ m, .took id m ∈ before ∧ (Json.fieldOrNull m "id").asInt? = some (id : Int) ∧
      o = Connection.outcomeOf m

/-- What holds in every reachable world. -/
structure Inv (w : World) : Prop where
  nextId_pos : 1 ≤ w.calls.nextId
  /-- The numbers handed out are one, two, three and so on. -/
  numbers : w.numbers = List.range' 1 (w.calls.nextId - 1)
  /-- Each number handed out is in one place. -/
  balance : ∀ id, w.tally id = w.numbers.count id
  /-- What was taken for a response is not pending any more. -/
  taken : ∀ id ∈ w.taken, id ∈ w.numbers ∧ id ∉ w.calls.pending
  nodup_taken : w.taken.Nodup
  /-- Nothing is pending once the table is closed. -/
  empty : w.calls.isClosed = true → w.calls.pending = []
  backed : ∀ t, (w.place t).Backed w.history
  justified : ∀ before after id o, w.history = before ++ .completed id o :: after →
    Justified before id o

theorem inv_new : Inv {} where
  nextId_pos := le_rfl
  numbers := rfl
  balance _ := rfl
  taken _ h := by cases h
  nodup_taken := List.nodup_nil
  empty _ := rfl
  backed _ := trivial
  justified before after _ _ h := by simp at h

namespace Inv

theorem nodup_numbers (h : Inv w) : w.numbers.Nodup := by
  rw [h.numbers]
  exact List.nodup_range' 1

/-- A request is in at most one place, and there once. -/
theorem tally_le_one (h : Inv w) (id : Nat) : w.tally id ≤ 1 := by
  rw [h.balance]
  exact List.nodup_iff_count_le_one.1 h.nodup_numbers id

theorem mem_numbers_of_pending (h : Inv w) (hid : id ∈ w.calls.pending) : id ∈ w.numbers := by
  have hpos := List.count_pos_iff.2 hid
  have hb := h.balance id
  rw [World.tally] at hb
  exact List.count_pos_iff.1 (by omega)

theorem nodup_pending (h : Inv w) : w.calls.pending.Nodup := by
  refine List.nodup_iff_count_le_one.2 fun id => ?_
  have hle := h.tally_le_one id
  rw [World.tally] at hle
  omega

theorem nodup_completed (h : Inv w) : w.completed.Nodup := by
  refine List.nodup_iff_count_le_one.2 fun id => ?_
  have hle := h.tally_le_one id
  rw [World.tally] at hle
  omega

theorem not_mem_completed (h : Inv w) (hid : id ∈ w.held) : id ∉ w.completed := by
  have hle := h.tally_le_one id
  have hpos := List.count_pos_iff.2 hid
  rw [World.tally] at hle
  exact List.count_eq_zero.1 (by omega)

end Inv

/-! ## Every step preserves it -/

theorem backed_go {es : List Event} (h : ∀ u, (w.place u).Backed es) (t : Thread) (p : Place)
    (hp : p.Backed es) (u : Thread) : ((w.go t p).place u).Backed es := by
  by_cases hu : u = t
  · subst hu
    simpa using hp
  · simpa [hu] using h u

/-- One more event keeps the completions justified if it is justified itself. -/
theorem justified_snoc {es : List Event} {e : Event}
    (h : ∀ before after id o, es = before ++ .completed id o :: after → Justified before id o)
    (he : ∀ id o, e = .completed id o → Justified es id o) (before after : List Event) (id : Nat)
    (o : Outcome) (heq : es ++ [e] = before ++ .completed id o :: after) :
    Justified before id o := by
  rcases List.eq_nil_or_concat after with rfl | ⟨mid, last, rfl⟩
  · obtain ⟨rfl, hlast⟩ := List.append_inj' heq rfl
    exact he id o (List.cons.inj hlast).1
  · have heq' : es ++ [e] = (before ++ .completed id o :: mid) ++ [last] := by
      simpa using heq
    exact h before mid id o (List.append_inj' heq' rfl).1

theorem Step.numbers (h : Step w w') (hi : Inv w) :
    1 ≤ w'.calls.nextId ∧ w'.numbers = List.range' 1 (w'.calls.nextId - 1) := by
  have hpos := hi.nextId_pos
  have hnum := hi.numbers
  cases h with
  | request method params h hr =>
    obtain ⟨-, rfl, rfl⟩ := CallTable.register_eq_some_iff.1 hr
    refine ⟨Nat.le_add_left _ _, ?_⟩
    have hone : w.calls.nextId + 1 - 1 = (w.calls.nextId - 1) + 1 := by omega
    have hlast : 1 + (w.calls.nextId - 1) = w.calls.nextId := by omega
    simp [World.numbers_act, Event.number?, hnum, hone, List.range'_concat, hlast]
  | take message h ht =>
    obtain ⟨-, -, rfl⟩ := CallTable.take_eq_some ht
    exact ⟨hpos, by simpa [World.numbers_act, Event.number?] using hnum⟩
  | shut t reason last h hs =>
    obtain ⟨-, -, rfl⟩ := CallTable.shut_eq_some_iff.1 hs
    exact ⟨hpos, by simpa [World.numbers_act, Event.number?] using hnum⟩
  | _ => exact ⟨hpos, by simpa [World.numbers_act, Event.number?] using hnum⟩

/-- What leaves one of the three places goes to another, and what comes from outside is new. -/
theorem Inv.balance_act (hi : Inv w) {q : Place} (h : w.place t = q) (p : Place) (c : CallTable)
    (e : Event) (id : Nat)
    (hmoved : p.held.count id + c.pending.count id + (e.completion?.map Prod.fst).toList.count id =
      q.held.count id + w.calls.pending.count id + e.number?.toList.count id) :
    (w.act t p c e).tally id = (w.act t p c e).numbers.count id := by
  have hb := hi.balance id
  have hact := World.tally_act h p c e id
  rw [World.numbers_act, List.count_append]
  omega

/-- The tally of a number grows by one exactly when the number is handed out. -/
theorem Step.balance (h : Step w w') (hi : Inv w) (id : Nat) :
    w'.tally id = w'.numbers.count id := by
  cases h with
  | @quiet t p hq =>
    have hb := hi.balance id
    have hgo := World.tally_go (w := w) (t := t) rfl p id
    simp only [hq.held, List.count_nil] at hgo
    rw [World.numbers_go]
    omega
  | request method params h hr =>
    obtain ⟨-, rfl, rfl⟩ := CallTable.register_eq_some_iff.1 hr
    refine hi.balance_act h _ _ _ id ?_
    simp [Place.held, Event.completion?, Event.number?]
  | write t message h he =>
    refine hi.balance_act h _ _ _ id ?_
    simp [Place.held, Event.completion?, Event.number?]
  | @take k calls message h ht =>
    obtain ⟨hmem, -, rfl⟩ := CallTable.take_eq_some ht
    have herase := (List.perm_cons_erase hmem).count_eq id
    rw [List.count_cons] at herase
    refine hi.balance_act h _ _ _ id ?_
    simp only [Place.held, Event.completion?, Event.number?, Option.map_none, Option.toList_none,
      List.count_nil, List.count_cons]
    omega
  | complete k message h =>
    refine hi.balance_act h _ _ _ id ?_
    simp [Place.held, Event.completion?, Event.number?, Nat.add_comm]
  | shut t reason last h hs =>
    obtain ⟨-, rfl, rfl⟩ := CallTable.shut_eq_some_iff.1 hs
    refine hi.balance_act h _ _ _ id ?_
    simp [Place.held, Event.completion?, Event.number?]
  | giveUp t k left reason last h hc =>
    refine hi.balance_act h _ _ _ id ?_
    simp [Place.held, Event.completion?, Event.number?, List.count_cons, Nat.add_right_comm]
  | passOver t k left reason last h hc =>
    -- a request that is held is not completed, so none is ever passed over
    refine absurd hc (hi.not_mem_completed ?_)
    cases t <;> simp [World.held, h, Place.held]

theorem Step.taken (h : Step w w') (hi : Inv w) :
    (∀ id ∈ w'.taken, id ∈ w'.numbers ∧ id ∉ w'.calls.pending) ∧ w'.taken.Nodup := by
  have htaken := hi.taken
  have hnodup := hi.nodup_taken
  cases h with
  | request method params h hr =>
    obtain ⟨-, rfl, rfl⟩ := CallTable.register_eq_some_iff.1 hr
    refine ⟨fun id hid => ?_, by simpa [World.taken_act, Event.taken?] using hnodup⟩
    obtain ⟨hnum, hpend⟩ := htaken id (by simpa [World.taken_act, Event.taken?] using hid)
    have hne : id ≠ w.calls.nextId := by
      rintro rfl
      have := hi.nextId_pos
      rw [hi.numbers, List.mem_range'_1] at hnum
      omega
    simp [World.numbers_act, hnum, hpend, hne]
  | @take k calls message h ht =>
    obtain ⟨hmem, -, rfl⟩ := CallTable.take_eq_some ht
    have hfresh : k ∉ w.taken := fun hk => (htaken k hk).2 hmem
    refine ⟨fun id hid => ?_, by
      simpa [World.taken_act, Event.taken?, List.nodup_append] using
        ⟨hnodup, fun a ha => fun hak => hfresh (hak ▸ ha)⟩⟩
    simp only [World.taken_act, Event.taken?, Option.toList_some, List.mem_append,
      List.mem_singleton] at hid
    rcases hid with hid | rfl
    · obtain ⟨hnum, hpend⟩ := htaken id hid
      exact ⟨by simp [World.numbers_act, hnum], fun he => hpend (List.mem_of_mem_erase he)⟩
    · exact ⟨by simp [World.numbers_act, hi.mem_numbers_of_pending hmem],
        hi.nodup_pending.not_mem_erase⟩
  | shut t reason last h hs =>
    obtain ⟨-, -, rfl⟩ := CallTable.shut_eq_some_iff.1 hs
    refine ⟨fun id hid => ?_, by simpa [World.taken_act, Event.taken?] using hnodup⟩
    have hid' : id ∈ w.taken := by simpa [World.taken_act, Event.taken?] using hid
    simp [World.numbers_act, (htaken id hid').1]
  | _ =>
    refine ⟨fun id hid => ?_, by simpa [World.taken_act, Event.taken?] using hnodup⟩
    have hid' := htaken id (by simpa [World.taken_act, Event.taken?] using hid)
    simpa [World.numbers_act, Event.number?] using hid'

theorem Step.empty (h : Step w w') (hi : Inv w) (hc : w'.calls.isClosed = true) :
    w'.calls.pending = [] := by
  have he := hi.empty
  cases h with
  | request method params h hr =>
    obtain ⟨hopen, -, rfl⟩ := CallTable.register_eq_some_iff.1 hr
    simp [CallTable.isClosed, hopen] at hc
  | take message h ht =>
    obtain ⟨-, -, rfl⟩ := CallTable.take_eq_some ht
    have hnil : w.calls.pending = [] := he hc
    simp [hnil]
  | shut t reason last h hs =>
    obtain ⟨-, -, rfl⟩ := CallTable.shut_eq_some_iff.1 hs
    rfl
  | _ => exact he hc

theorem Step.backed (h : Step w w') (hi : Inv w) (u : Thread) : (w'.place u).Backed w'.history := by
  have hb := hi.backed
  have hmono := fun e u => (hb u).mono e
  cases h with
  | @quiet t p hq => exact backed_go hb t p (hq.backed _) u
  | @request k calls method params h hr =>
    exact backed_go (hmono _) .client (.writing (Connection.requestMessage k method params))
      trivial u
  | write t message h he => exact backed_go (hmono _) t .free trivial u
  | @take k calls message h ht =>
    have htook : Event.took k message ∈ w.history ++ [.took k message] := by simp
    exact backed_go (hmono _) .listener (.resolving k message)
      ⟨htook, (CallTable.take_eq_some ht).2.1⟩ u
  | complete k message h => exact backed_go (hmono _) .listener .free trivial u
  | @shut left calls t reason last h hs =>
    have hshut : Event.shut reason ∈ w.history ++ [.shut reason] := by simp
    exact backed_go (hmono _) t (.losing left reason last) hshut u
  | giveUp t k left reason last h hc =>
    have hshut : Event.shut reason ∈ w.history := by simpa [h, Place.Backed] using hb t
    exact backed_go (hmono _) t (.losing left reason last) (List.mem_append_left _ hshut) u
  | passOver t k left reason last h hc =>
    have hshut : Event.shut reason ∈ w.history := by simpa [h, Place.Backed] using hb t
    exact backed_go hb t (.losing left reason last) hshut u

theorem Step.justified (h : Step w w') (hi : Inv w) (before after : List Event) (id : Nat)
    (o : Outcome) (heq : w'.history = before ++ .completed id o :: after) :
    Justified before id o := by
  have hj := hi.justified
  cases h with
  | quiet | passOver => exact hj before after id o heq
  | request | write | take | shut =>
    exact justified_snoc hj (by rintro _ _ ⟨⟩) before after id o heq
  | complete k message h =>
    refine justified_snoc hj ?_ before after id o heq
    rintro _ _ ⟨⟩
    have hb := hi.backed .listener
    rw [h] at hb
    exact .inr ⟨message, hb.1, hb.2, rfl⟩
  | giveUp t k left reason last h hc =>
    refine justified_snoc hj ?_ before after id o heq
    rintro _ _ ⟨⟩
    have hb := hi.backed t
    rw [h] at hb
    exact .inl ⟨reason, hb, rfl⟩

theorem Step.inv (h : Step w w') (hi : Inv w) : Inv w' where
  nextId_pos := (h.numbers hi).1
  numbers := (h.numbers hi).2
  balance := h.balance hi
  taken := (h.taken hi).1
  nodup_taken := (h.taken hi).2
  empty := h.empty hi
  backed := h.backed hi
  justified := h.justified hi

theorem Steps.inv (h : Steps w w') (hi : Inv w) : Inv w' := by
  induction h with
  | refl => exact hi
  | tail _ hstep ih => exact hstep.inv ih

theorem Reachable.inv (h : Reachable w) : Inv w :=
  Steps.inv h inv_new

/-! ## A closed table -/

theorem Step.closed {reason : String} (h : Step w w') (hc : w.calls.closed = some reason) :
    w'.calls.closed = some reason := by
  cases h with
  | request method params h hr =>
    obtain ⟨hopen, -, -⟩ := CallTable.register_eq_some_iff.1 hr
    rw [hopen] at hc
    cases hc
  | take message h ht =>
    obtain ⟨-, -, rfl⟩ := CallTable.take_eq_some ht
    exact hc
  | shut t r last h hs =>
    obtain ⟨hopen, -, -⟩ := CallTable.shut_eq_some_iff.1 hs
    rw [hopen] at hc
    cases hc
  | _ => exact hc

theorem Steps.closed {reason : String} (h : Steps w w') (hc : w.calls.closed = some reason) :
    w'.calls.closed = some reason := by
  induction h with
  | refl => exact hc
  | tail _ hstep ih => exact hstep.closed ih

/-! ## Where a request is -/

namespace World

/-- The request is in the table and not completed. -/
def Waits (w : World) (id : Nat) : Prop :=
  id ∈ w.calls.pending ∧ id ∉ w.completed

/-- Exactly one thread holds the request, which is not completed. -/
def IsHeld (w : World) (id : Nat) : Prop :=
  (∃! t, id ∈ (w.place t).held) ∧ id ∉ w.completed

/-- The request is completed. -/
def Done (w : World) (id : Nat) : Prop :=
  id ∈ w.completed

theorem mem_held {w : World} {id : Nat} : id ∈ w.held ↔ ∃ t, id ∈ (w.place t).held := by
  constructor
  · intro h
    rcases List.mem_append.1 h with h | h
    · exact ⟨.client, h⟩
    · exact ⟨.listener, h⟩
  · rintro ⟨_ | _, h⟩
    · exact List.mem_append_left _ h
    · exact List.mem_append_right _ h

end World

namespace Inv

theorem unique_holder (hi : Inv w) {t u : Thread} (ht : id ∈ (w.place t).held)
    (hu : id ∈ (w.place u).held) : t = u := by
  have hle := hi.tally_le_one id
  have hpt := List.count_pos_iff.2 ht
  have hpu := List.count_pos_iff.2 hu
  simp only [World.tally, World.held, List.count_append] at hle
  cases t <;> cases u <;> first | rfl | omega

/-- A number that was handed out is in exactly one of the three situations. -/
theorem situation (hi : Inv w) (hid : id ∈ w.numbers) :
    (w.Waits id ∧ ¬ w.IsHeld id ∧ ¬ w.Done id) ∨ (¬ w.Waits id ∧ w.IsHeld id ∧ ¬ w.Done id) ∨
      (¬ w.Waits id ∧ ¬ w.IsHeld id ∧ w.Done id) := by
  have hone : w.calls.pending.count id + w.held.count id + w.completed.count id = 1 := by
    rw [← World.tally, hi.balance]
    exact List.count_eq_one_of_mem hi.nodup_numbers hid
  have hheld : w.IsHeld id ↔ id ∈ w.held ∧ id ∉ w.completed := by
    refine and_congr_left fun _ => ⟨fun h => World.mem_held.2 h.exists, fun h => ?_⟩
    obtain ⟨t, ht⟩ := World.mem_held.1 h
    exact ⟨t, ht, fun u hu => hi.unique_holder hu ht⟩
  simp only [hheld, World.Waits, World.Done, ← List.count_pos_iff]
  omega

end Inv

/-- **Every request is completed at most once, and none gets lost.** In every world that a schedule
leads to:

* the numbers handed out are one, two, three and so on;
* each of them is in exactly one of three situations: waiting, held, or done;
* none is completed a second time;
* none is taken out of the table a second time, and one that is completed with anything but a loss
  was taken out of the table before, for the response that gives the outcome, whose id means it;
* once the table is closed it stays closed for the same reason, and nothing is pending any more;
* if the table is closed and no thread holds anything, every request is completed. -/
theorem reachable_exactly_once (h : Reachable w) :
    w.numbers = List.range' 1 (w.calls.nextId - 1) ∧
    (∀ id ∈ w.numbers,
      (w.Waits id ∧ ¬ w.IsHeld id ∧ ¬ w.Done id) ∨ (¬ w.Waits id ∧ w.IsHeld id ∧ ¬ w.Done id) ∨
        (¬ w.Waits id ∧ ¬ w.IsHeld id ∧ w.Done id)) ∧
    w.completed.Nodup ∧
    w.taken.Nodup ∧
    (∀ before after (id : Nat) o, w.history = before ++ .completed id o :: after →
      (∀ l, o ≠ .lost l) → ∃ m, .took id m ∈ before ∧
        (Json.fieldOrNull m "id").asInt? = some (id : Int) ∧ o = Connection.outcomeOf m) ∧
    (∀ w' reason, Steps w w' → w.calls.closed = some reason →
      w'.calls.closed = some reason ∧ w'.calls.pending = []) ∧
    (w.calls.isClosed = true → w.held = [] → ∀ id ∈ w.numbers, w.Done id) := by
  have hi := h.inv
  refine ⟨hi.numbers, fun id hid => hi.situation hid, hi.nodup_completed, hi.nodup_taken,
    ?_, ?_, ?_⟩
  · intro before after id o heq ho
    rcases hi.justified before after id o heq with ⟨reason, -, hlost⟩ | hm
    · exact absurd hlost (ho _)
    · exact hm
  · intro w' reason hs hc
    have hc' := hs.closed hc
    exact ⟨hc', (hs.inv hi).empty (by simp [CallTable.isClosed, hc'])⟩
  · intro hc hheld id hid
    rcases hi.situation hid with ⟨hw, -⟩ | ⟨-, hh, -⟩ | ⟨-, -, hd⟩
    · simp [World.Waits, hi.empty hc] at hw
    · obtain ⟨t, ht⟩ := hh.1.exists
      simpa [hheld] using World.mem_held.2 ⟨t, ht⟩
    · exact hd

/-- The response to the first request. -/
def earlyResponse : Json.Object :=
  [("id", .int 1), ("result", .bool true)]

/-- A response overtakes the write of its request, which then fails while the response is being
handled: the client closes the connection before the listener completes the request. -/
def overtaken : World where
  calls := { nextId := 2, closed := some "write failed: broken pipe" }
  place
    | .client => .losing [] "write failed: broken pipe" false
    | .listener => .resolving 1 earlyResponse
  history := [.registered 1, .took 1 earlyResponse, .shut "write failed: broken pipe"]

theorem reachable_overtaken : Reachable overtaken := by
  let reason := "write failed: broken pipe"
  let w₁ := World.act {} .client (.writing (Connection.requestMessage 1 "shutdown" none))
    { nextId := 2, pending := [1] } (.registered 1)
  let w₂ := w₁.go .listener (.answered earlyResponse)
  let w₃ := w₂.act .listener (.resolving 1 earlyResponse) { nextId := 2 } (.took 1 earlyResponse)
  let w₄ := w₃.go .client (.closing reason false)
  let w₅ := w₄.act .client (.losing [] reason false) { nextId := 2, closed := some reason }
    (.shut reason)
  have h₁ : Step {} w₁ := .request "shutdown" none rfl rfl
  have h₂ : Step w₁ w₂ := .quiet (.receive earlyResponse rfl)
  have h₃ : Step w₂ w₃ := .take earlyResponse rfl rfl
  have h₄ : Step w₃ w₄ := .quiet (.broken .client _ "broken pipe" rfl)
  have h₅ : Step w₄ w₅ := .shut .client reason false rfl rfl
  have heq : w₅ = overtaken := by
    refine congrArg (World.mk _ · _) (funext fun t => ?_)
    cases t <;> rfl
  exact heq ▸ ((((Relation.ReflTransGen.single h₁).tail h₂).tail h₃).tail h₄).tail h₅

/-- The request is held by the listener only, though the connection is closed. -/
theorem overtaken_exactly_once :
    Reachable overtaken ∧ overtaken.numbers = [1] ∧ overtaken.IsHeld 1 ∧ ¬ overtaken.Done 1 := by
  refine ⟨reachable_overtaken, rfl, ?_⟩
  rcases (reachable_exactly_once reachable_overtaken).2.1 1 (by decide) with h | h | h
  · exact absurd h.1.1 (by decide)
  · exact h.2
  · exact absurd h.2.2 (show 1 ∉ overtaken.completed by decide)

end SymbolAtlas.Interleaving
