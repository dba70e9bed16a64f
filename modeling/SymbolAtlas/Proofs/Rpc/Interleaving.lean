import Mathlib.Logic.Function.Basic
import Mathlib.Logic.Relation
import SymbolAtlas.Rpc.Connection

/-!
# Two threads on one connection

A connection is used by two threads: the client's, which sends requests and notifications and
closes the connection, and the listener's, which handles what arrives. Every block under the lock
of the call table is one step (`CallTable.register`, `CallTable.take`, `CallTable.shut`), and so is
a write and the completion of a request. Between two steps of one thread the other may take any
number of its own, and any write may fail, whether or not its bytes were on their way already.

What arrives is left open: the listener may be handed any object as a response, may have to write
any answer, and may stop for any reason at any time it is not busy with a message. Messages that
leave the call table alone (notifications, console lines) are no steps, nor are calls that are
refused because the connection is closed.

* `Interleaving.Place` — where a thread is between two of its steps;
* `Interleaving.World` — the call table, both places, and what has happened so far;
* `Interleaving.Step` — one step of one of the threads;
* `Interleaving.Reachable` — the worlds that some schedule leads to.
-/

namespace SymbolAtlas.Interleaving

/-- The threads that use a connection. -/
inductive Thread
  | client | listener
  deriving DecidableEq, Repr

/-- Where a thread is between two of its steps. -/
inductive Place
  /-- Between two calls, or between two messages. -/
  | free
  /-- Before the write of a message. -/
  | writing (message : Json)
  /-- With a response whose request was not looked for yet. -/
  | answered (message : Json.Object)
  /-- With a request that was taken out of the table for a response. -/
  | resolving (id : Nat) (message : Json.Object)
  /-- Before the block that closes the table; `last` says that the thread ends afterwards. -/
  | closing (reason : String) (last : Bool)
  /-- With the requests of a closed table that are still to be given up. -/
  | losing (left : List Nat) (reason : String) (last : Bool)
  /-- At the end. -/
  | over

/-- The requests that a thread holds: taken out of the table and not completed yet. -/
def Place.held : Place → List Nat
  | .resolving id _ => [id]
  | .losing left _ _ => left
  | _ => []

/-- Where a thread goes once the connection is closed. -/
def Place.after (last : Bool) : Place :=
  if last then .over else .free

/-- What happens at a step. -/
inductive Event
  /-- A request got its number and was put into the table. -/
  | registered (id : Nat)
  /-- A message was written. -/
  | wrote (message : Json)
  /-- A request was taken out of the table for a response. -/
  | took (id : Nat) (message : Json.Object)
  /-- A request was completed. -/
  | completed (id : Nat) (outcome : Outcome)
  /-- The table was closed. -/
  | shut (reason : String)

/-- The number that was handed out. -/
def Event.number? : Event → Option Nat
  | .registered id => some id
  | _ => none

/-- The message that was written. -/
def Event.written? : Event → Option Json
  | .wrote m => some m
  | _ => none

/-- The request that was taken for a response. -/
def Event.taken? : Event → Option Nat
  | .took id _ => some id
  | _ => none

/-- The request that was completed, with its outcome. -/
def Event.completion? : Event → Option (Nat × Outcome)
  | .completed id o => some (id, o)
  | _ => none

/-- The call table, where both threads are, and what has happened so far. -/
structure World where
  calls : CallTable := {}
  place : Thread → Place := fun _ => .free
  history : List Event := []

namespace World

/-- The world with a thread in another place. -/
def go (w : World) (t : Thread) (p : Place) : World :=
  { w with place := Function.update w.place t p }

/-- The world after a step of a thread that something happens at: the thread is in another place,
the table may have changed, and the event is added to the history. -/
def act (w : World) (t : Thread) (p : Place) (calls : CallTable) (e : Event) : World :=
  { calls := calls, place := Function.update w.place t p, history := w.history ++ [e] }

/-- The numbers handed out so far, in order. -/
def numbers (w : World) : List Nat :=
  w.history.filterMap Event.number?

/-- The requests taken for a response so far, in order. -/
def taken (w : World) : List Nat :=
  w.history.filterMap Event.taken?

/-- The messages written so far, in order. -/
def written (w : World) : List Json :=
  w.history.filterMap Event.written?

/-- The requests completed so far with their outcomes, in order. -/
def completions (w : World) : List (Nat × Outcome) :=
  w.history.filterMap Event.completion?

/-- The requests completed so far, in order. -/
def completed (w : World) : List Nat :=
  w.completions.map Prod.fst

/-- The requests that some thread holds. -/
def held (w : World) : List Nat :=
  (w.place .client).held ++ (w.place .listener).held

@[simp] theorem go_calls (w : World) (t : Thread) (p : Place) : (w.go t p).calls = w.calls := rfl

@[simp] theorem go_history (w : World) (t : Thread) (p : Place) :
    (w.go t p).history = w.history := rfl

@[simp] theorem go_place (w : World) (t : Thread) (p : Place) :
    (w.go t p).place = Function.update w.place t p := rfl

@[simp] theorem act_calls (w : World) (t : Thread) (p : Place) (c : CallTable) (e : Event) :
    (w.act t p c e).calls = c := rfl

@[simp] theorem act_history (w : World) (t : Thread) (p : Place) (c : CallTable) (e : Event) :
    (w.act t p c e).history = w.history ++ [e] := rfl

@[simp] theorem act_place (w : World) (t : Thread) (p : Place) (c : CallTable) (e : Event) :
    (w.act t p c e).place = Function.update w.place t p := rfl

end World

/-! ## Steps -/

/-- The steps that change nothing but the place of a thread. -/
inductive Quiet (w : World) : Thread → Place → Prop
  /-- The client sends a notification, the connection being open when it looks. -/
  | notify (method : String) (params : Option Json) (h : w.place .client = .free)
      (ho : w.calls.isClosed = false) :
      Quiet w .client (.writing (Connection.notificationMessage method params))
  /-- The client closes the connection. -/
  | close (reason : String) (h : w.place .client = .free) :
      Quiet w .client (.closing reason false)
  /-- The listener has to answer a request of the other side. -/
  | answer (id : Json) (field : Text × Json) (h : w.place .listener = .free) :
      Quiet w .listener (.writing (.obj [("jsonrpc", .str "2.0"), ("id", id), field]))
  /-- The listener is handed a response. -/
  | receive (message : Json.Object) (h : w.place .listener = .free) :
      Quiet w .listener (.answered message)
  /-- The response belongs to no pending request. -/
  | unknown (message : Json.Object) (h : w.place .listener = .answered message)
      (hn : w.calls.take (Json.fieldOrNull message "id") = none) : Quiet w .listener .free
  /-- The stream is over or broken, or something in it cannot be read or handled. -/
  | stop (reason : String) (h : w.place .listener = .free) :
      Quiet w .listener (.closing reason true)
  /-- A write fails because the stream is broken or the message has no bytes. -/
  | broken (t : Thread) (message : Json) (text : String) (h : w.place t = .writing message) :
      Quiet w t (.closing s!"write failed: {text}" false)
  /-- A write of the client fails in another way, which its caller is told. -/
  | raise (message : Json) (h : w.place .client = .writing message) : Quiet w .client .free
  /-- A write of the listener fails in another way, for which it stops. -/
  | fail (message : Json) (reason : String) (h : w.place .listener = .writing message) :
      Quiet w .listener (.closing reason true)
  /-- The table was closed already. -/
  | shutBefore (t : Thread) (reason : String) (last : Bool) (h : w.place t = .closing reason last)
      (hs : w.calls.shut reason = none) : Quiet w t (.after last)
  /-- All requests have been given up. -/
  | lost (t : Thread) (reason : String) (last : Bool) (h : w.place t = .losing [] reason last) :
      Quiet w t (.after last)

/-- One step of one of the threads. -/
inductive Step (w : World) : World → Prop
  | quiet {t : Thread} {p : Place} (h : Quiet w t p) : Step w (w.go t p)
  /-- The client's request gets its number and its place in the table. -/
  | request {id : Nat} {calls : CallTable} (method : String) (params : Option Json)
      (h : w.place .client = .free) (hr : w.calls.register = some (id, calls)) :
      Step w (w.act .client (.writing (Connection.requestMessage id method params)) calls
        (.registered id))
  /-- A message is written. -/
  | write (t : Thread) (message : Json) (h : w.place t = .writing message)
      (he : (Frame.encode? message).isSome) :
      Step w (w.act t .free w.calls (.wrote message))
  /-- The listener takes the request of a response out of the table. -/
  | take {id : Nat} {calls : CallTable} (message : Json.Object)
      (h : w.place .listener = .answered message)
      (ht : w.calls.take (Json.fieldOrNull message "id") = some (id, calls)) :
      Step w (w.act .listener (.resolving id message) calls (.took id message))
  /-- The listener completes the request it holds, whether or not it is completed already. -/
  | complete (id : Nat) (message : Json.Object) (h : w.place .listener = .resolving id message) :
      Step w (w.act .listener .free w.calls (.completed id (Connection.outcomeOf message)))
  /-- A thread closes the table and holds what was pending in it. -/
  | shut {left : List Nat} {calls : CallTable} (t : Thread) (reason : String) (last : Bool)
      (h : w.place t = .closing reason last) (hs : w.calls.shut reason = some (left, calls)) :
      Step w (w.act t (.losing left reason last) calls (.shut reason))
  /-- A thread gives up a request that is not completed. -/
  | giveUp (t : Thread) (id : Nat) (left : List Nat) (reason : String) (last : Bool)
      (h : w.place t = .losing (id :: left) reason last) (hc : id ∉ w.completed) :
      Step w (w.act t (.losing left reason last) w.calls
        (.completed id (.lost (.aborted id reason))))
  /-- A thread passes over a request that is completed already. -/
  | passOver (t : Thread) (id : Nat) (left : List Nat) (reason : String) (last : Bool)
      (h : w.place t = .losing (id :: left) reason last) (hc : id ∈ w.completed) :
      Step w (w.go t (.losing left reason last))

/-- Any number of steps. -/
abbrev Steps : World → World → Prop :=
  Relation.ReflTransGen Step

/-- The worlds that some schedule leads to from a new connection. -/
def Reachable (w : World) : Prop :=
  Steps {} w

end SymbolAtlas.Interleaving
