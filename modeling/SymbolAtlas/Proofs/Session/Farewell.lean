import SymbolAtlas.Proofs.Session.Upkeep

/-!
# Taking leave

Whatever its peer makes of it, a session is closed without a fault if nothing can go wrong with the
peer but that it is lost, and if the time that the session waits is one that can be waited.

* `Peer.Plain` — peers that can only be lost;
* `Session.close_session` — the session after it was closed;
* `Session.close_ok` — a session with such a peer is closed without a fault.
-/

namespace SymbolAtlas

/-- What is asked of such a peer, and what it is told, fails only because it is lost. -/
structure Peer.Plain {τ : Type} [Peer τ] (I : τ → Prop) : Prop where
  request : ∀ call p kind text, I p → (Peer.request call p).1 ≠ .raised kind text
  notify : ∀ call p fault, I p → (Peer.notify call p).1 = .error fault →
    fault.isKind .transportClosed = true

namespace Session

open Lsp

variable {τ : Type} [Peer τ] {I : τ → Prop} {t : Talk τ}

/-- Closing a session changes nothing of it but its phase. -/
theorem close_session (t : Talk τ) :
    (exec (close : SessionM τ Unit) t).2.session = { t.session with phase := .closed } := by
  have hends := close_ends t
  generalize exec (close : SessionM τ Unit) t = r at hends
  cases hends <;> rfl

/-- Letting the server go hides that it is lost. -/
theorem sendExit_ok (hplain : Peer.Plain I) (ht : I t.peer) :
    (exec (sendExit : SessionM τ Unit) t).1 = .ok () := by
  unfold sendExit
  simp only [exec_tryCatch, exec_bind, exec_tell]
  cases htell : (Peer.notify Call.exit t.peer).1 with
  | ok u => rfl
  | error fault =>
    dsimp only
    rw [if_pos (hplain.notify _ _ _ ht htell)]
    rfl

/-- The server is asked to shut down, and every reply is put up with. -/
theorem takeLeave_ok (hplain : Peer.Plain I) (hkeeps : Peer.Keeps I)
    (hwait : t.session.timeout.wait = .ok ()) (ht : I t.peer) :
    (exec (takeLeave : SessionM τ Unit) t).1 = .ok () := by
  unfold takeLeave
  rw [exec_bind, exec_ask]
  have hkept := hkeeps.request Call.shutdown _ ht
  cases hreply : (Peer.request Call.shutdown t.peer).1 with
  | result v => exact sendExit_ok hplain hkept
  | refused r => rfl
  | lost l => rfl
  | raised kind text => exact absurd hreply (hplain.request _ _ _ _ ht)
  | silent =>
    dsimp only
    rw [exec_bind, exec_current]
    dsimp only
    rw [hwait]
    rfl

/-- **A session is closed without a fault.** -/
theorem close_ok (hplain : Peer.Plain I) (hkeeps : Peer.Keeps I)
    (hwait : t.session.timeout.wait = .ok ()) (ht : I t.peer) :
    (exec (close : SessionM τ Unit) t).1 = .ok () := by
  unfold close
  simp only [exec_bind, exec_current, exec_enter]
  split
  · rw [exec_bind, exec_get]
    dsimp only
    split
    · rfl
    · exact takeLeave_ok hplain hkeeps hwait ht
  · rfl

end Session

end SymbolAtlas
