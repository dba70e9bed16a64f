import SymbolAtlas.Proofs.Rpc.Listener
import SymbolAtlas.Proofs.Rpc.Schedule

/-!
# What the listener leaves to the client

The listener completes requests and answers those of the other side. It makes no requests and no
notifications of its own, and what has ended stays ended.

* `Connection.spoken` — the requests and notifications that were written;
* `Connection.Quiet` — what changes when the client says nothing, with one lemma for each operation,
  up to `Connection.quiet_listen`;
* `Connection.Later` — a connection that went on, with `Connection.Later.outcome?`;
* `Connection.Numbered` — the numbers that are not taken yet, and `Connection.Unused` for a connection
  on which all of them are left.
-/

namespace SymbolAtlas.Connection

variable {σ : Type} {c d e : Connection σ}

/-- A message with a method is a request or a notification. -/
def isSpoken (m : Json) : Bool :=
  (m.field? "method").isSome

/-- The requests and notifications that were written. -/
def spoken (c : Connection σ) : List Json :=
  c.sent.filter isSpoken

/-- The numbers from the next one on were given to no request. -/
structure Numbered (c : Connection σ) : Prop where
  pending : ∀ id ∈ c.calls.pending, id < c.calls.nextId
  settled : ∀ s ∈ c.settled, s.1 < c.calls.nextId

/-- The table of calls with one more request. -/
def registered (c : Connection σ) : CallTable :=
  { c.calls with nextId := c.calls.nextId + 1, pending := c.calls.pending ++ [c.calls.nextId] }

/-- A new request leaves later numbers to be taken. -/
theorem Numbered.registered (h : c.Numbered) (hcalls : d.calls = c.registered)
    (hsettled : d.settled = c.settled) : d.Numbered where
  pending id hid := by
    simp only [hcalls, Connection.registered, List.mem_append, List.mem_singleton] at hid ⊢
    obtain hid | rfl := hid
    · exact Nat.lt_succ_of_lt (h.pending id hid)
    · exact Nat.lt_succ_self _
  settled s hs := by
    rw [hcalls]
    exact Nat.lt_succ_of_lt (h.settled s (hsettled ▸ hs))

/-- What has ended stays ended, and what was said stays said. -/
structure Later (c d : Connection σ) : Prop where
  settled : c.settled <+: d.settled
  spoken : c.spoken <+: d.spoken

/-- Nothing was said in between. -/
structure Quiet (c d : Connection σ) : Prop where
  settled : c.settled <+: d.settled
  spoken : d.spoken = c.spoken
  nextId : d.calls.nextId = c.calls.nextId
  numbered : c.Numbered → d.Numbered

/-- Nothing was said yet. -/
structure Unused (c : Connection σ) : Prop where
  spoken : c.spoken = []
  nextId : c.calls.nextId = 1
  numbered : c.Numbered

theorem Unused.quiet (h : Unused c) (hquiet : Quiet c d) : Unused d where
  spoken := hquiet.spoken.trans h.spoken
  nextId := hquiet.nextId.trans h.nextId
  numbered := hquiet.numbered h.numbered

theorem Later.refl (c : Connection σ) : Later c c :=
  ⟨List.prefix_rfl, List.prefix_rfl⟩

theorem Later.trans (h : Later c d) (h' : Later d e) : Later c e :=
  ⟨h.settled.trans h'.settled, h.spoken.trans h'.spoken⟩

/-- A request that has ended has ended in the same way later. -/
theorem outcome?_of_prefix (h : c.settled <+: d.settled) {id : Nat} {o : Outcome}
    (ho : c.outcome? id = some o) : d.outcome? id = some o := by
  obtain ⟨more, hmore⟩ := h
  obtain ⟨s, hs, rfl⟩ := Option.map_eq_some_iff.1 ho
  rw [Connection.outcome?, ← hmore, List.find?_append, hs]
  rfl

theorem Later.outcome? (h : Later c d) {id : Nat} {o : Outcome} (ho : c.outcome? id = some o) :
    d.outcome? id = some o :=
  outcome?_of_prefix h.settled ho

/-- A pending request is lost when the connection is closed. -/
theorem outcome?_shutdown (hopen : c.calls.closed = none) {id : Nat}
    (hpending : id ∈ c.calls.pending) (hsettled : ∀ s ∈ c.settled, s.1 ≠ id) (reason : String) :
    (c.shutdown reason).outcome? id = some (.lost (.aborted id reason)) := by
  unfold shutdown
  split
  · next hshut => simp [CallTable.shut_eq_none_iff, CallTable.isClosed, hopen] at hshut
  · next pending calls hshut =>
    obtain ⟨-, rfl, rfl⟩ := CallTable.shut_eq_some_iff.1 hshut
    have hold : c.settled.find? (fun s => s.1 == id) = none := by simpa using hsettled
    have hfind : c.calls.pending.find? (fun k => k == id) = some id := by
      cases hfind : c.calls.pending.find? fun k => k == id with
      | none => exact absurd (beq_self_eq_true id) (List.find?_eq_none.1 hfind id hpending)
      | some k =>
        have hk : (k == id) = true := List.find?_some (p := fun k => k == id) hfind
        rw [eq_of_beq hk]
    have hnew : (c.calls.pending.map fun k => (k, Outcome.lost (.aborted k reason))).find?
        (fun s => s.1 == id) = some (id, .lost (.aborted id reason)) := by
      rw [List.find?_map]
      exact congrArg (Option.map _) hfind
    simp [outcome?, record, recordAll, List.find?_append, hold, hnew]

namespace Quiet

theorem later (h : Quiet c d) : Later c d :=
  ⟨h.settled, h.spoken ▸ List.prefix_rfl⟩

theorem refl (c : Connection σ) : Quiet c c :=
  ⟨List.prefix_rfl, rfl, rfl, id⟩

theorem trans (h : Quiet c d) (h' : Quiet d e) : Quiet c e :=
  ⟨h.settled.trans h'.settled, h'.spoken.trans h.spoken, h'.nextId.trans h.nextId,
    fun hc => h'.numbered (h.numbered hc)⟩

/-- What leaves the calls and what was written alone is quiet. -/
theorem of_eq (hcalls : d.calls = c.calls) (hsettled : d.settled = c.settled)
    (hsent : d.sent = c.sent) : Quiet c d where
  settled := hsettled ▸ List.prefix_rfl
  spoken := by rw [Connection.spoken, hsent, Connection.spoken]
  nextId := by rw [hcalls]
  numbered h := ⟨by simpa [hcalls] using h.pending, by simpa [hcalls, hsettled] using h.settled⟩

end Quiet

theorem quiet_recordAll (c : Connection σ) (es : List Entry) : Quiet c (c.recordAll es) :=
  .of_eq rfl rfl rfl

theorem quiet_withInbound (c : Connection σ) (i : Inbound) : Quiet c (c.withInbound i) :=
  .of_eq rfl rfl rfl

theorem quiet_shutdown (c : Connection σ) (reason : String) : Quiet c (c.shutdown reason) := by
  unfold shutdown
  split
  · exact .refl c
  · next pending calls hshut =>
    obtain ⟨-, rfl, rfl⟩ := CallTable.shut_eq_some_iff.1 hshut
    exact
      { settled := List.prefix_append ..
        spoken := rfl
        nextId := rfl
        numbered := fun h => by
          refine ⟨fun id hid => (by cases hid), fun s hs => ?_⟩
          obtain hs | hs := List.mem_append.1 hs
          · exact h.settled s hs
          · obtain ⟨id, hid, rfl⟩ := List.mem_map.1 hs
            exact h.pending id hid }

/-- Writing a message without a method says nothing. -/
theorem quiet_write (c : Connection σ) (depth : Nat) {m : Json} (hm : isSpoken m = false) :
    Quiet c (c.write depth m).2 := by
  obtain ⟨-, h⟩ | ⟨text, h⟩ | ⟨kind, text, h⟩ := c.write_cases depth m <;> rw [h]
  · exact
      { settled := List.prefix_rfl
        spoken := by simp [Connection.spoken, hm]
        nextId := rfl
        numbered := fun h => ⟨h.pending, h.settled⟩ }
  · exact quiet_shutdown ..
  · exact .refl c

theorem quiet_respond (c : Connection σ) (method : Text) (params : Json) :
    Quiet c (c.respond method params).2 := by
  obtain ⟨hcalls, hsettled, hsent, -⟩ := Interleaving.Shows.respond_frame c method params
  exact .of_eq hcalls hsettled hsent

/-- The field of an answer is no method. -/
theorem respond_field (c : Connection σ) (method : Text) (params : Json) :
    (c.respond method params).1.1 ≠ "method" := by
  have herror : Text.ofString "error" ≠ Text.ofString "method" := by decide
  have hresult : Text.ofString "result" ≠ Text.ofString "method" := by decide
  unfold respond
  split
  · exact herror
  · dsimp only
    split
    · exact hresult
    · exact herror

theorem quiet_answer (c : Connection σ) (id : Json) (method : Text) (params : Json) :
    Quiet c (c.answer id method params).2 := by
  have hrespond := quiet_respond c method params
  have hfield := respond_field c method params
  unfold answer
  generalize c.respond method params = r at hrespond hfield ⊢
  obtain ⟨⟨name, v⟩, d⟩ := r
  dsimp only at hrespond hfield ⊢
  have hspoken : isSpoken (.obj [("jsonrpc", .str "2.0"), ("id", id), (name, v)]) = false := by
    have hjsonrpc : Text.ofString "jsonrpc" ≠ Text.ofString "method" := by decide
    have hid : Text.ofString "id" ≠ Text.ofString "method" := by decide
    simp [isSpoken, Json.field?, Fields.get?, hfield, hjsonrpc, hid]
  have hwrite := quiet_write d d.depths.answer hspoken
  generalize d.write _ _ = w at hwrite ⊢
  obtain ⟨_ | ⟨_ | _⟩, d'⟩ := w
  · exact hrespond.trans hwrite
  · exact (hrespond.trans hwrite).trans (quiet_recordAll ..)
  · exact hrespond.trans hwrite

theorem quiet_handOn (c : Connection σ) (method : Text) (params : Json) :
    Quiet c (c.handOn method params) := by
  unfold handOn
  split
  · exact .refl c
  · dsimp only
    split <;> exact .of_eq rfl rfl rfl

theorem quiet_resolve (c : Connection σ) (m : Json.Object) : Quiet c (c.resolve m) := by
  unfold resolve
  dsimp only
  split
  · exact quiet_recordAll ..
  · next id calls htake =>
    obtain ⟨hid, -, rfl⟩ := CallTable.take_eq_some htake
    exact
      { settled := List.prefix_append ..
        spoken := rfl
        nextId := rfl
        numbered := fun h => by
          refine ⟨fun k hk => h.pending k (List.mem_of_mem_erase hk), fun s hs => ?_⟩
          obtain hs | hs := List.mem_append.1 hs
          · exact h.settled s hs
          · rw [List.mem_singleton.1 hs]
            exact h.pending id hid }

theorem quiet_dispatch (c : Connection σ) (m : Json.Object) : Quiet c (c.dispatch m).2 := by
  unfold dispatch
  split
  · dsimp only
    split
    · exact quiet_answer ..
    · exact quiet_handOn ..
  · split
    · exact quiet_resolve ..
    · exact quiet_recordAll ..

theorem quiet_hear (c : Connection σ) (line : String) : Quiet c (c.hear line).2 := by
  unfold hear
  split
  · exact .refl c
  · dsimp only
    split <;> exact .of_eq rfl rfl rfl

theorem quiet_stop (c : Connection σ) (reason : String) : Quiet c (c.stop reason) :=
  (quiet_shutdown c reason).trans (.of_eq rfl rfl rfl)

theorem quiet_stopFor (c : Connection σ) (fault : StreamFault) : Quiet c (c.stopFor fault) := by
  cases fault with
  | broken text => exact quiet_stop ..
  | other kind text => exact (quiet_recordAll ..).trans (quiet_stop ..)

theorem quiet_stopIf {r : Option StreamFault × Connection σ} (h : Quiet c r.2) :
    Quiet c (stopIf r) := by
  obtain ⟨_ | fault, d⟩ := r
  · exact h
  · exact h.trans (quiet_stopFor d fault)

theorem quiet_act (c : Connection σ) (found : Frame.Found) : Quiet c (c.act found) := by
  cases found with
  | waiting => exact .refl c
  | onward stage rest => exact .refl c
  | ended => exact quiet_stop ..
  | console text rest => exact quiet_stopIf (quiet_hear ..)
  | message m rest => exact quiet_stopIf (quiet_dispatch ..)
  | bad fault rest =>
    cases fault with
    | frame e => exact quiet_stop ..
    | length e => exact quiet_stopFor c (.other e.kind e.text)
    | longInteger => exact quiet_stop ..

theorem quiet_advance (h : c.advance = some d) : Quiet c d := by
  by_cases hf : c.found = .waiting
  · obtain ⟨fault, -, rfl⟩ := advance_of_waiting hf h
    exact quiet_stopFor ..
  · rw [advance_of_ne hf] at h
    obtain rfl := Option.some.inj h
    exact (quiet_act ..).trans (quiet_withInbound ..)

/-- The listener says nothing of its own, whatever it takes. -/
theorem quiet_listen (c : Connection σ) : Quiet c c.listen := by
  induction c using listen_induction with
  | stopped c h =>
    rw [listen_of_ne h]
    exact .refl c
  | waits c _ h =>
    rw [listen_of_advance_none h]
    exact .refl c
  | step c d hrunning h ih =>
    rw [listen_eq_of_advance hrunning h]
    exact (quiet_advance h).trans ih

theorem quiet_start (c : Connection σ) : Quiet c c.start := by
  unfold start
  split
  · have hrunning : Quiet c { c with listener := .running } := .of_eq rfl rfl rfl
    exact hrunning.trans (quiet_listen _)
  · exact .refl c

theorem quiet_feed (c : Connection σ) (bytes : List UInt8) : Quiet c (c.feed bytes) :=
  (quiet_withInbound c _).trans (quiet_listen _)

theorem quiet_finish (c : Connection σ) : Quiet c c.finish :=
  (quiet_withInbound c _).trans (quiet_listen _)

end SymbolAtlas.Connection
