import SymbolAtlas.Journal
import SymbolAtlas.Failure
import SymbolAtlas.Lsp.Calls

/-!
# Peers

What a session talks to: something that takes requests, to which it has a reply sooner or later,
and notifications. A session does not know whether a server is behind it; a peer that answers from
a list serves to rehearse sessions without one.

* `Reply` — what comes of a request;
* `Peer` — what a session needs of its other side;
* `ScriptedPeer` — a peer that answers from a list and keeps what it was sent.
-/

namespace SymbolAtlas

/-- What comes of a request. -/
inductive Reply
  /-- The request was answered. -/
  | result (v : Json)
  /-- The request was answered with an error. -/
  | refused (r : Refusal)
  /-- The connection was lost before an answer came, or before the request was sent. -/
  | lost (l : Loss)
  /-- No answer came in time. -/
  | silent
  /-- The request failed in some other way. -/
  | raised (kind : String) (text : Text)

/-- The other side of a session. -/
class Peer (τ : Type) where
  /-- Sends a request and waits for what comes of it. -/
  request : Lsp.Call → τ → Reply × τ
  /-- Sends a notification. -/
  notify : Lsp.Call → τ → Except Fault Unit × τ
  /-- Whether nothing can be sent any more. -/
  isClosed : τ → Bool
  /-- Makes a journal entry. -/
  record : Entry → τ → τ

/-! ## Scripted peers -/

/-- A peer that answers from a list. -/
structure ScriptedPeer where
  /-- The replies by method. They are used one after the other, and the last one stays. -/
  replies : Fields Text (List Reply) := []
  isClosed : Bool := false
  /-- What was sent, in order. -/
  sent : List Lsp.Call := []
  journal : List Entry := []

namespace ScriptedPeer

/-- The loss that sending on a closed peer is. -/
def cannotSend (call : Lsp.Call) : Loss :=
  .cannotSend call.method "closed"

/-- The next reply to a method and the replies after it. -/
def nextReply (p : ScriptedPeer) (method : String) : Reply × Fields Text (List Reply) :=
  match (Fields.get? p.replies method).getD [] with
  | [] => (.result .null, p.replies)
  | [r] => (r, p.replies)
  | r :: rs => (r, Fields.put p.replies method rs)

instance : Peer ScriptedPeer where
  request call p :=
    if p.isClosed then (.lost (cannotSend call), p)
    else
      let (reply, replies) := p.nextReply call.method
      (reply, { p with replies := replies, sent := p.sent ++ [call] })
  notify call p :=
    if p.isClosed then (.error (.failure (.lost (cannotSend call))), p)
    else (.ok (), { p with sent := p.sent ++ [call] })
  isClosed p := p.isClosed
  record e p := { p with journal := p.journal ++ [e] }

end ScriptedPeer

end SymbolAtlas
