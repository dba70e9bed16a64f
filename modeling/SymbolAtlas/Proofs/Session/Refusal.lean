import SymbolAtlas.Proofs.Rpc.Matching
import SymbolAtlas.Proofs.Session.Loss
import SymbolAtlas.Server.Scripted

/-!
# Questions that are refused

A response refuses a request if its field for an error holds an object. A question that is refused
ends in a failure that says so, and the session is closed. A field for an error that holds anything
else is not looked at: the response is taken for an answer then.

* `Connection.RespondsTo` — a response to a request;
* `Connection.RespondsTo.settled` — what becomes of the request, once and for all;
* `refused_question` — a question whose request was refused;
* `error_replies_refuse` — a response with an error, up to what the session makes of it.
-/

namespace SymbolAtlas

open Lsp

namespace Connection

variable {σ : Type} {c d : Connection σ} {id : Nat} {m : Json.Object} {o : Outcome}

theorem mem_settled (h : c.outcome? id = some o) : (id, o) ∈ c.settled := by
  obtain ⟨⟨k, o'⟩, hfind, rfl⟩ := Option.map_eq_some_iff.1 h
  have hk : (k == id) = true := List.find?_some (p := fun s : Nat × Outcome => s.1 == id) hfind
  obtain rfl := eq_of_beq hk
  exact List.mem_of_find?_eq_some hfind

/-- The message has no method, and its id is the number of the request. -/
structure RespondsTo (m : Json.Object) (id : Nat) : Prop where
  method : ∀ method, Fields.get? m "method" ≠ some (.str method)
  number : Fields.get? m "id" = some (.int id)

theorem RespondsTo.errand (h : RespondsTo m id) : errand m = .response (.int id) := by
  unfold SymbolAtlas.errand
  rw [h.number]
  split
  · next method _ hmethod _ => exact absurd hmethod (h.method method)
  · next method hmethod _ => exact absurd hmethod (h.method method)
  · next hid _ =>
    cases hid
    rfl
  · next hid _ => cases hid

/-- The response completes the request that is under way. -/
theorem RespondsTo.dispatch (h : RespondsTo m id) (hc : c.Owes id) :
    (c.dispatch m).2.outcome? id = some (outcomeOf m) := by
  rw [dispatch_eq, h.errand]
  dsimp only
  have hid := fieldOrNull_id h.errand
  unfold resolve
  dsimp only
  split
  · next htake =>
    rw [hid] at htake
    exact absurd rfl (CallTable.asInt?_ne_of_take_eq_none htake hc.pending)
  · next k calls htake =>
    obtain ⟨-, hint, -⟩ := CallTable.take_eq_some htake
    rw [hid] at hint
    obtain rfl : id = k := Int.ofNat.inj (Option.some.inj hint)
    have hold : c.settled.find? (fun s => s.1 == id) = none := by simpa using hc.unsettled
    simp [outcome?, List.find?_append, hold]

/-- What a response makes of its request stays as it is, whatever becomes of the connection. -/
theorem RespondsTo.settled (h : RespondsTo m id) (hc : c.Owes id)
    (hfuture : Future (c.dispatch m).2 d) : d.outcome? id = some (outcomeOf m) :=
  outcome?_of_prefix hfuture.settled (h.dispatch hc)

end Connection

namespace LiveServer

open Connection

variable {s : LiveServer} {call : Call} {m : Json.Object} {r : Refusal}

/-- The reply to a request is what became of it. -/
theorem reply_of_refused (hs : s.Steady)
    (h : (s.request call).2.connection.outcome? s.connection.calls.nextId = some (.refused r)) :
    (s.request call).1 = .refused r := by
  unfold LiveServer.request at h ⊢
  by_cases hclosed : s.connection.calls.isClosed = true
  · rw [sendRequest_of_closed hclosed] at h
    have hlt := hs.orderly.numbered.settled _ (mem_settled h)
    exact absurd rfl (Nat.ne_of_lt hlt)
  have hopen := CallTable.closed_of_not_isClosed hclosed
  obtain ⟨c, hc⟩ := hs.numbered hopen call
  rw [hc] at h ⊢
  dsimp only at h ⊢
  rw [replyTo, h]

end LiveServer

/-- **A question that was refused ends in a failure that says so.** -/
theorem refused_question {t : Talk LiveServer} {op : Operation} {subject : Subject} {call : Call}
    {r : Refusal} (ht : t.peer.Steady) (hasks : t.Asks op subject call)
    (h : (op.perform t).2.peer.connection.outcome? t.peer.connection.calls.nextId =
      some (.refused r)) :
    (op.perform t).1 = .error (.failure (.queryRefused subject r)) ∧
      (op.perform t).2.session.phase = .closed := by
  obtain ⟨α, read, result, hends, hperform⟩ := hasks.ends
  rw [hperform] at h ⊢
  obtain @⟨es, es', reply, p, hask⟩ := hends
  obtain ⟨journal, hnoted⟩ := LiveServer.noted_eq es t.peer
  obtain ⟨journal', hnoted'⟩ := LiveServer.noted_eq es' p
  have hsteady := LiveServer.steady_kept.noted es ht
  change LiveServer.request call _ = _ at hask
  have hreply : (LiveServer.request call (Peer.noted es t.peer)).1 = .refused r := by
    refine LiveServer.reply_of_refused hsteady ?_
    rw [hask, hnoted]
    rw [Operation.silenced, hnoted'] at h
    exact h
  rw [hask] at hreply
  cases hreply
  exact ⟨rfl, rfl⟩

/-- **A response with an error is never taken for an answer, if its error is an object.** A request
that is under way when its response comes is completed by it, and stays so whatever becomes of the
connection: it is refused if the error is an object, while anything else in its place is passed
over. And whatever has been done with a session, a question whose request was refused ends in a
failure that says so, and the session is closed. -/
theorem error_replies_refuse {σ : Type} {c d : Connection σ} {id : Nat} {m : Json.Object}
    (hc : c.Owes id) (hm : Connection.RespondsTo m id)
    (hfuture : Connection.Future (c.dispatch m).2 d) {t : Talk LiveServer} {op : Operation}
    {subject : Subject} {call : Call} (ht : t.Reached) (hasks : t.Asks op subject call) :
    (∀ error, Fields.get? m "error" = some (.obj error) →
      d.outcome? id = some (.refused (Connection.refusal error))) ∧
    ((∀ error, Fields.get? m "error" ≠ some (.obj error)) →
      d.outcome? id = some (.result (Json.fieldOrNull m "result"))) ∧
    ∀ r, (op.perform t).2.peer.connection.outcome? t.peer.connection.calls.nextId =
        some (.refused r) →
      (op.perform t).1 = .error (.failure (.queryRefused subject r)) ∧
        (op.perform t).2.session.phase = .closed := by
  refine ⟨fun error herror => ?_, fun hnone => ?_, fun r h => refused_question ht.steady hasks h⟩
  · rw [hm.settled hc hfuture, Connection.outcomeOf, herror]
  · rw [hm.settled hc hfuture, Connection.outcomeOf]
    split
    · next error herror => exact absurd herror (hnone error)
    · rfl

/-! ## Samples -/

/-- A server that answers a search with an error. -/
def refusingServer (error : Json) : Server :=
  Script.server { onMethod := [("workspace/symbol", [.replyError error])] }

/-- A session that waits for a second at most. -/
def briefSession : Session :=
  { timeout := ⟨.int 1, isPositive_one⟩ }

/-- The handshake with that server. -/
def greeted (error : Json) : Except Fault Unit × Talk LiveServer :=
  Operation.perform (.handshake bareDisk 1 (Path.parse "/"))
    ⟨briefSession, .connect (refusingServer error) {} []⟩

theorem reached_greeted (error : Json) : (greeted error).2.Reached := by
  have hnew : Session.new (.int 1) = .ok briefSession := rfl
  exact .perform _ (.start hnew ..)

/-- An error as the protocol has it. -/
def sampleError : Json :=
  .obj [("code", .int (-32803)), ("message", .str "index not ready")]

/-- The response with it to the first request. -/
def refusedAnswer : Json.Object :=
  [("id", .int 1), ("error", sampleError)]

theorem respondsTo_refusedAnswer : Connection.RespondsTo refusedAnswer 1 where
  method method h := by
    have hnone : Fields.get? refusedAnswer "method" = none := by decide
    rw [hnone] at h
    cases h
  number := rfl

theorem owes_asking : Interleaving.asking.Owes 1 where
  «open» := rfl
  pending := by decide +kernel
  unsettled := by decide +kernel

/-- The response of the sample refuses its request, and the search of the sample is refused. -/
theorem object_error_refuses :
    Interleaving.asking.Owes 1 ∧ Connection.RespondsTo refusedAnswer 1 ∧
      (∃ r, (Interleaving.asking.dispatch refusedAnswer).2.outcome? 1 = some (.refused r)) ∧
      (greeted sampleError).2.Reached ∧
      (greeted sampleError).2.Asks (.workspaceSymbols "A") (.workspaceSymbols "A")
        (Call.workspaceSymbol "A") ∧
      ∃ r, (Operation.perform (.workspaceSymbols "A") (greeted sampleError).2).1 =
          .error (.failure (.queryRefused (.workspaceSymbols "A") r)) ∧
        (Operation.perform (.workspaceSymbols "A") (greeted sampleError).2).2.session.phase =
          .closed := by
  have hreached := reached_greeted sampleError
  have hfacts : (greeted sampleError).2.session.phase ∈ Phase.ready ∧
      ((Operation.perform (.workspaceSymbols "A")
        (greeted sampleError).2).2.peer.connection.outcome?
          (greeted sampleError).2.peer.connection.calls.nextId).any
            (fun o => o matches .refused _) = true := by decide +kernel
  obtain ⟨hready, hrefused⟩ := hfacts
  have hasks : (greeted sampleError).2.Asks (.workspaceSymbols "A") (.workspaceSymbols "A")
      (Call.workspaceSymbol "A") := .workspaceSymbols hready
  obtain ⟨hcompleted, -, hquestion⟩ :=
    error_replies_refuse owes_asking respondsTo_refusedAnswer .refl hreached hasks
  obtain ⟨o, ho, hmatches⟩ := (Option.any_eq_true ..).1 hrefused
  refine ⟨owes_asking, respondsTo_refusedAnswer, ⟨_, hcompleted _ rfl⟩, hreached, hasks, ?_⟩
  cases o with
  | refused r => exact ⟨r, hquestion r ho⟩
  | result v => cases hmatches
  | lost l => cases hmatches

/-- An error that is a text is not looked at: the search has found nothing. -/
theorem text_error_overlooked :
    (greeted (.str "index not ready")).2.Reached ∧
      (greeted (.str "index not ready")).2.session.phase = .initialized ∧
      (exec (Session.workspaceSymbols "A" : SessionM LiveServer (List SymbolNode))
        (greeted (.str "index not ready")).2).1 = .ok [] := by
  have hfacts : (greeted (.str "index not ready")).2.session.phase = .initialized ∧
      (exec (Session.workspaceSymbols "A" : SessionM LiveServer (List SymbolNode))
        (greeted (.str "index not ready")).2).1.toOption.map List.length = some 0 := by
    decide +kernel
  obtain ⟨hphase, hlength⟩ := hfacts
  refine ⟨reached_greeted _, hphase, ?_⟩
  generalize exec _ (greeted (.str "index not ready")).2 = r at hlength ⊢
  obtain ⟨e | nodes, t⟩ := r
  · cases hlength
  · exact congrArg Except.ok (List.eq_nil_of_length_eq_zero (Option.some.inj hlength))

end SymbolAtlas
