import SymbolAtlas.Proofs.Session.Exchanges

/-!
# What a session keeps

Whatever a session does to its peer is made of requests, notifications and journal entries. So what
each of these keeps is kept by every step, and no step changes how long the session waits.

* `Maintains` — what a computation leaves, whatever comes of it, with `Maintains.bind` for sequences
  and `Maintains.mapM` for loops;
* `Peer.Keeps` — what a peer keeps, whatever is done to it;
* `Talk.Upheld` — a session that waits as long as it did, with such a peer;
* `Session.handshake_upholds`, `Session.openDocument_upholds`, … — the steps, put together in
  `Operation.perform_upholds`.
-/

namespace SymbolAtlas

/-! ## Whatever comes of it -/

section Maintains

variable {ε σ α β : Type}

/-- Whatever comes of it, the computation ends in a state in `P` if it begins in one. -/
def Maintains (P : σ → Prop) (m : ExceptT ε (StateM σ) α) : Prop :=
  ∀ s, P s → P (exec m s).2

namespace Maintains

variable {P : σ → Prop} {m : ExceptT ε (StateM σ) α} {f : α → ExceptT ε (StateM σ) β}

theorem pure (a : α) : Maintains P (Pure.pure a : ExceptT ε (StateM σ) α) :=
  fun _ hs => hs

theorem bind (hm : Maintains P m) (hf : ∀ a, Maintains P (f a)) : Maintains P (m >>= f) := by
  intro s hs
  have h := hm s hs
  rw [exec_bind]
  generalize exec m s = r at h ⊢
  obtain ⟨e | a, s'⟩ := r
  · exact h
  · exact hf a s' h

/-- A loop maintains what each of its rounds maintains. -/
theorem mapM {γ : Type} {f : γ → ExceptT ε (StateM σ) α} {xs : List γ}
    (h : ∀ x ∈ xs, Maintains P (f x)) : Maintains P (xs.mapM f) := by
  induction xs with
  | nil => exact pure []
  | cons x xs ih =>
    rw [List.mapM_cons]
    refine (h x (List.mem_cons_self ..)).bind fun a => ?_
    exact (ih fun y hy => h y (List.mem_cons_of_mem _ hy)).bind fun as => pure _

end Maintains

end Maintains

/-! ## Sessions -/

/-- What is kept of a peer, whatever is done to it. -/
structure Peer.Keeps {τ : Type} [Peer τ] (I : τ → Prop) : Prop where
  request : ∀ call p, I p → I (Peer.request call p).2
  notify : ∀ call p, I p → I (Peer.notify call p).2
  record : ∀ e p, I p → I (Peer.record e p)

variable {τ α : Type} [Peer τ] {I : τ → Prop}

theorem Peer.Keeps.noted (hI : Peer.Keeps I) (es : List Entry) {p : τ} (h : I p) :
    I (Peer.noted es p) := by
  induction es generalizing p with
  | nil => exact h
  | cons e es ih => exact ih (hI.record e p h)

/-- The session waits as long as it is given, and its peer is as it should be. -/
structure Talk.Upheld (I : τ → Prop) (timeout : Timeout) (t : Talk τ) : Prop where
  timeout : t.session.timeout = timeout
  peer : I t.peer

namespace Session

open Lsp

@[simp] theorem fallen_timeout (s : Session) (e : Fault) : (s.fallen e).timeout = s.timeout := by
  cases e <;> rfl

@[simp] theorem afterQuery_timeout (s : Session) (r : Except Fault α) :
    (s.afterQuery r).timeout = s.timeout := by
  cases r with
  | ok a => rfl
  | error e => exact s.fallen_timeout e

variable {timeout : Timeout} {t : Talk τ} {call : Call} {p : τ}

/-- A request is made after some journal entries. -/
theorem asked_keeps (hI : Peer.Keeps I) (es : List Entry) {q : τ} (hq : I q) {reply : Reply}
    (h : Peer.request call (Peer.noted es q) = (reply, p)) : I p := by
  have hrequest := hI.request call _ (hI.noted es hq)
  rwa [h] at hrequest

theorem told_keeps (hI : Peer.Keeps I) {q : τ} (hq : I q) {told : Except Fault Unit}
    (h : Peer.notify call q = (told, p)) : I p := by
  have hnotify := hI.notify call _ hq
  rwa [h] at hnotify

theorem handshake_upholds (hI : Peer.Keeps I) (disk : Disk) (processId : Int) (root : Path) :
    Maintains (Talk.Upheld I timeout) (handshake disk processId root : SessionM τ Json) := by
  intro t ht
  have hends := handshake_ends disk processId root t
  generalize exec (handshake disk processId root) t = r at hends
  cases hends with
  | outOfPhase h => exact ht
  | unresolved h hroot => exact ⟨ht.timeout, ht.peer⟩
  | unanswered h hroot hask hverdict => exact ⟨by simp [ht.timeout], asked_keeps hI _ ht.peer hask⟩
  | untold h hroot hask htell =>
    exact ⟨by simp [ht.timeout], told_keeps hI (asked_keeps hI _ ht.peer hask) htell⟩
  | done h hroot hask htell =>
    exact ⟨ht.timeout, hI.noted _ (told_keeps hI (asked_keeps hI _ ht.peer hask) htell)⟩

theorem openDocument_upholds (hI : Peer.Keeps I) (disk : Disk) (path : Path)
    (languageId : Text) :
    Maintains (Talk.Upheld I timeout)
      (openDocument disk path languageId : SessionM τ TextDocument) := by
  intro t ht
  have hends := openDocument_ends disk path languageId t
  generalize exec (openDocument disk path languageId) t = r at hends
  cases hends with
  | outOfPhase h => exact ht
  | unreadable h => exact ⟨ht.timeout, ht.peer⟩
  | astray h => exact ht
  | again es h htext hpath hd => exact ⟨ht.timeout, hI.noted es ht.peer⟩
  | untold h htext hpath hd htell => exact ⟨by simp [ht.timeout], told_keeps hI ht.peer htell⟩
  | opened es h htext hpath hd htell =>
    exact ⟨ht.timeout, hI.noted es (told_keeps hI ht.peer htell)⟩

theorem askEnds_upholds (hI : Peer.Keeps I) {verdict : Timeout → Reply → Except Fault α}
    (ht : t.Upheld I timeout) {r : Except Fault α × Talk τ} (hends : AskEnds call verdict t r) :
    r.2.Upheld I timeout := by
  obtain @⟨es, es', reply, p, hask⟩ := hends
  exact ⟨by simp [ht.timeout], hI.noted es' (asked_keeps hI _ ht.peer hask)⟩

theorem documentSymbols_upholds (hI : Peer.Keeps I) (document : Option TextDocument) :
    Maintains (Talk.Upheld I timeout)
      (documentSymbols document : SessionM τ (List SymbolNode)) := by
  intro t ht
  have hends := documentSymbols_ends document t
  generalize exec (documentSymbols document) t = r at hends
  cases hends with
  | asked h htarget hopen hends => exact askEnds_upholds hI ht hends
  | _ => exact ht

theorem references_upholds (hI : Peer.Keeps I) (uri : Text) (p : Position) :
    Maintains (Talk.Upheld I timeout) (references uri p : SessionM τ (List Location)) := by
  intro t ht
  have hends := references_ends uri p t
  generalize exec (references uri p) t = r at hends
  cases hends with
  | asked h hopen hends => exact askEnds_upholds hI ht hends
  | _ => exact ht

theorem workspaceSymbols_upholds (hI : Peer.Keeps I) (text : String) :
    Maintains (Talk.Upheld I timeout)
      (workspaceSymbols text : SessionM τ (List SymbolNode)) := by
  intro t ht
  have hends := workspaceSymbols_ends text t
  generalize exec (workspaceSymbols text) t = r at hends
  cases hends with
  | asked h hends => exact askEnds_upholds hI ht hends
  | outOfPhase h => exact ht

theorem close_upholds (hI : Peer.Keeps I) :
    Maintains (Talk.Upheld I timeout) (close : SessionM τ Unit) := by
  intro t ht
  have hends := close_ends t
  generalize exec (close : SessionM τ Unit) t = r at hends
  cases hends with
  | quiet es h => exact ⟨ht.timeout, hI.noted es ht.peer⟩
  | refused es h hopen hask hresult =>
    exact ⟨ht.timeout, hI.noted es (asked_keeps hI [] ht.peer hask)⟩
  | agreed es h hopen hask htell hresult =>
    exact ⟨ht.timeout,
      hI.noted es (told_keeps hI (asked_keeps hI [] ht.peer hask) htell)⟩

theorem note_upholds (hI : Peer.Keeps I) (level : Level) (event : String) (fields : Json.Object) :
    Maintains (Talk.Upheld I timeout) (note level event fields : SessionM τ Unit) :=
  fun _ ht => ⟨ht.timeout, hI.record _ _ ht.peer⟩

end Session

/-- Every operation upholds it. -/
theorem Operation.perform_upholds (hI : Peer.Keeps I) {timeout : Timeout} (op : Operation)
    {t : Talk τ} (ht : t.Upheld I timeout) : (op.perform t).2.Upheld I timeout := by
  cases op with
  | handshake disk processId root => exact Session.handshake_upholds hI disk processId root t ht
  | openDocument disk path languageId =>
    exact Session.openDocument_upholds hI disk path languageId t ht
  | documentSymbols document => exact Session.documentSymbols_upholds hI document t ht
  | references uri p => exact Session.references_upholds hI uri p t ht
  | workspaceSymbols text => exact Session.workspaceSymbols_upholds hI text t ht
  | close => exact Session.close_upholds hI t ht

end SymbolAtlas
