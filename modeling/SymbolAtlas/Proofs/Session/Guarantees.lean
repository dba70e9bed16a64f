import SymbolAtlas.Proofs.Session.Endings
import SymbolAtlas.Proofs.Symbols.Anchors

/-!
# What a session in good order guarantees

As long as a session is asked only for what fits its phase and its documents, each step ends in one
of the failures that the step foresees, and leaves the session in good order if it succeeds.

* `Ensures` — what a computation guarantees from the states that meet a condition, with
  `Ensures.bind` for sequences and `Ensures.mapM` for loops;
* `Peer.Faithful` — a notification only fails because the connection is lost;
* `Talk.Holds` — a session that is ready and in which some documents are open;
* `openDocument_ensures`, `documentSymbols_ensures`, `references_ensures`, … — the steps.
-/

namespace SymbolAtlas

/-! ## Guarantees -/

section Ensures

variable {ε σ α β : Type}

/-- A computation ended in a result and a state in `Q`, or in an error in `E`. -/
def Ends (Q : α → σ → Prop) (E : ε → Prop) : Except ε α × σ → Prop
  | (.ok a, s) => Q a s
  | (.error e, _) => E e

/-- From every state in `P` the computation ends in a result and a state in `Q`, or in an error in
`E`. -/
def Ensures (P : σ → Prop) (m : ExceptT ε (StateM σ) α) (Q : α → σ → Prop) (E : ε → Prop) : Prop :=
  ∀ s, P s → Ends Q E (exec m s)

theorem Ends.imp {Q Q' : α → σ → Prop} {E : ε → Prop} {r : Except ε α × σ} (h : Ends Q E r)
    (hQ : ∀ a s, Q a s → Q' a s) : Ends Q' E r := by
  obtain ⟨e | a, s⟩ := r
  · exact h
  · exact hQ a s h

namespace Ensures

variable {P P' : σ → Prop} {m : ExceptT ε (StateM σ) α} {f : α → ExceptT ε (StateM σ) β}
  {Q Q' : α → σ → Prop} {R : β → σ → Prop} {E : ε → Prop} {s s' : σ}

theorem of_ok (h : Ensures P m Q E) (hs : P s) {a : α} (hm : exec m s = (.ok a, s')) : Q a s' := by
  have := h s hs
  rwa [hm] at this

theorem of_error (h : Ensures P m Q E) (hs : P s) {e : ε} (hm : exec m s = (.error e, s')) :
    E e := by
  have := h s hs
  rwa [hm] at this

theorem pure (a : α) (h : ∀ s, P s → Q a s) :
    Ensures P (Pure.pure a : ExceptT ε (StateM σ) α) Q E :=
  fun s hs => h s hs

theorem bind (hm : Ensures P m Q E) (hf : ∀ a, Ensures (Q a) (f a) R E) :
    Ensures P (m >>= f) R E := by
  intro s hs
  have h := hm s hs
  rw [exec_bind]
  generalize exec m s = r at h ⊢
  obtain ⟨e | a, s'⟩ := r
  · exact h
  · exact hf a s' h

theorem weaken (h : Ensures P m Q E) (hP : ∀ s, P' s → P s) (hQ : ∀ a s, Q a s → Q' a s) :
    Ensures P' m Q' E :=
  fun s hs => (h s (hP s hs)).imp hQ

/-- A fact about no state can be used on the way. -/
theorem given {φ : Prop} (h : φ → Ensures P m Q E) : Ensures (fun s => P s ∧ φ) m Q E :=
  fun s hs => h hs.2 s hs.1

theorem exists_ {ι : Type} {P : ι → σ → Prop} (h : ∀ i, Ensures (P i) m Q E) :
    Ensures (fun s => ∃ i, P i s) m Q E :=
  fun s ⟨i, hs⟩ => h i s hs

/-- A loop keeps what each of its rounds keeps. -/
theorem mapM {γ : Type} {f : γ → ExceptT ε (StateM σ) α} {xs : List γ}
    (h : ∀ x ∈ xs, Ensures P (f x) (fun _ => P) E) : Ensures P (xs.mapM f) (fun _ => P) E := by
  induction xs with
  | nil => exact pure [] fun s hs => hs
  | cons x xs ih =>
    rw [List.mapM_cons]
    refine (h x (List.mem_cons_self ..)).bind fun a => ?_
    exact (ih fun y hy => h y (List.mem_cons_of_mem _ hy)).bind fun as => pure _ fun s hs => hs

end Ensures

end Ensures

/-- Notifications only fail because the connection is lost. -/
def Peer.Faithful (τ : Type) [Peer τ] : Prop :=
  ∀ (call : Lsp.Call) (p q : τ) (fault : Fault), Peer.notify call p = (.error fault, q) →
    fault.Among [.transportClosed]

/-- A session that is ready and in which the documents with the given addresses are open. -/
structure Talk.Holds {τ : Type} (uris : List Text) (t : Talk τ) : Prop where
  tidy : t.session.Tidy
  ready : t.session.phase ∈ Phase.ready
  opened : ∀ uri ∈ uris, Fields.has t.session.documents uri = true

/-- A failure that a stage of a session foresees. -/
def Fault.Foreseen (fault : Fault) : Prop :=
  fault.Among [.handshake, .documentRead, .query, .transportClosed]

theorem Talk.Holds.phase {τ : Type} {uris : List Text} {t : Talk τ} {uri : Text}
    (h : t.Holds uris) (huri : uri ∈ uris) : t.session.phase = .documentOpen := by
  obtain ⟨d, hd⟩ := Option.isSome_iff_exists.1 (h.opened uri huri)
  exact h.tidy.phase_of_get? h.ready hd

namespace Session

open Lsp

variable {τ α : Type} [Peer τ] {uris : List Text}

theorem handshake_ensures (hpeer : Peer.Faithful τ) (disk : Disk) (processId : Int) (root : Path) :
    Ensures (fun t => t.session.Tidy ∧ t.session.phase = .created)
      (handshake disk processId root : SessionM τ Json) (fun _ => Talk.Holds [])
      Fault.Foreseen := by
  rintro t ⟨htidy, hphase⟩
  have hends := handshake_ends disk processId root t
  generalize exec (handshake disk processId root) t = r at hends
  cases hends with
  | outOfPhase h => exact absurd hphase h
  | unresolved h hroot => rintro f ⟨⟩
  | unanswered h hroot hask hverdict => exact (handshakeVerdict_among hverdict).mono (by simp)
  | untold h hroot hask htell => exact (hpeer _ _ _ _ htell).mono (by simp)
  | done h hroot hask htell =>
    obtain ⟨hdocuments, hdocument⟩ := htidy.empty (by simp [hphase])
    exact ⟨.of_empty hdocuments hdocument (by simp), by simp [Phase.ready], by simp⟩

theorem openDocument_ensures (hpeer : Peer.Faithful τ) (disk : Disk) (path : Path)
    (languageId : Text) :
    Ensures (Talk.Holds uris) (openDocument disk path languageId : SessionM τ TextDocument)
      (fun d t => t.Holds (d.uri :: uris) ∧ t.session.document = some d) Fault.Foreseen := by
  intro t ht
  have hends := openDocument_ends disk path languageId t
  generalize exec (openDocument disk path languageId) t = r at hends
  cases hends with
  | outOfPhase h => exact absurd ht.ready h
  | unreadable h =>
    rintro f ⟨⟩
    simp [Failure.kind]
  | astray h => rintro f ⟨⟩
  | @again es text resolved d h htext hpath hd =>
    refine ⟨⟨ht.tidy.withLast h hd, ht.ready, List.forall_mem_cons.2 ⟨?_, ht.opened⟩⟩, rfl⟩
    rw [(ht.tidy.entries _ _ hd).1]
    exact Option.isSome_iff_exists.2 ⟨d, hd⟩
  | untold h htext hpath hd htell => exact (hpeer _ _ _ _ htell).mono (by simp)
  | @opened es text resolved p h htext hpath hd htell =>
    have hversion : (documentAt resolved.uri languageId text).version = documentVersion := rfl
    generalize documentAt (resolved.uri : Text) languageId text = new at hversion
    refine ⟨⟨ht.tidy.withOpened hversion, by simp [withOpened, Phase.ready], fun uri huri => ?_⟩, rfl⟩
    rw [withOpened, Fields.has, Fields.get?_put]
    obtain rfl | huri := List.mem_cons.1 huri
    · simp
    · split
      · rfl
      · exact ht.opened uri huri

/-- A question keeps the session in good order if it is answered. -/
theorem askEnds_ensures {call : Call} {subject : Subject} {read : Json → Except Failure α}
    {Q : α → Prop} (hread : ∀ v f, read v = .error f → f.kind = .query)
    (hQ : ∀ v a, read v = .ok a → Q a) {t : Talk τ} (ht : t.Holds uris)
    {r : Except Fault α × Talk τ} (hends : AskEnds call (queryVerdict subject read) t r) :
    Ends (fun a t => t.Holds uris ∧ Q a) Fault.Foreseen r := by
  obtain @⟨es, es', reply, p, hask⟩ := hends
  cases hverdict : queryVerdict subject read t.session.timeout reply with
  | error e => exact (queryVerdict_among hread hverdict).mono (by simp)
  | ok a =>
    obtain ⟨v, -, hv⟩ := queryVerdict_eq_ok hverdict
    exact ⟨⟨ht.tidy, ht.ready, ht.opened⟩, hQ v a hv⟩

/-- The symbols of an open document are anchored in it. -/
theorem documentSymbols_ensures (document : Option TextDocument) {d : TextDocument}
    (hd : d.uri ∈ uris) :
    Ensures (fun t => t.Holds uris ∧ document.or t.session.document = some d)
      (documentSymbols document : SessionM τ (List SymbolNode))
      (fun ns t => t.Holds uris ∧ ∀ n ∈ ns, n.Anchored d.uri) Fault.Foreseen := by
  rintro t ⟨ht, hdocument⟩
  have hends := documentSymbols_ends document t
  generalize exec (documentSymbols document) t = r at hends
  cases hends with
  | outOfPhase h => exact absurd (ht.phase hd) h
  | stranded h hnone => simp [hnone] at hdocument
  | @unopened target h htarget hopen =>
    obtain rfl : target = d := by simpa [htarget] using hdocument
    simp [ht.opened _ hd] at hopen
  | @asked target r h htarget hopen hends =>
    obtain rfl : target = d := by simpa [htarget] using hdocument
    exact askEnds_ensures (fun _ _ => Answer.kind_of_decodeAll)
      (fun _ _ => Answer.anchored_of_documentSymbols) ht hends

theorem references_ensures {uri : Text} (huri : uri ∈ uris) (p : Position) :
    Ensures (Talk.Holds uris) (references uri p : SessionM τ (List Location))
      (fun _ => Talk.Holds uris) Fault.Foreseen := by
  intro t ht
  have hends := references_ends uri p t
  generalize exec (references uri p) t = r at hends
  cases hends with
  | outOfPhase h => exact absurd (ht.phase huri) h
  | unopened h hopen => simp [ht.opened _ huri] at hopen
  | asked h hopen hends =>
    exact (askEnds_ensures (Q := fun _ => True) (fun _ _ => Answer.kind_of_decodeAll)
      (fun _ _ _ => trivial) ht hends).imp fun _ _ h => h.1

theorem workspaceSymbols_ensures (text : String) :
    Ensures (Talk.Holds uris) (workspaceSymbols text : SessionM τ (List SymbolNode))
      (fun _ => Talk.Holds uris) Fault.Foreseen := by
  intro t ht
  have hends := workspaceSymbols_ends text t
  generalize exec (workspaceSymbols text) t = r at hends
  cases hends with
  | outOfPhase h => exact absurd ht.ready h
  | asked h hends =>
    exact (askEnds_ensures (Q := fun _ => True) (fun _ _ => Answer.kind_of_decodeAll)
      (fun _ _ _ => trivial) ht hends).imp fun _ _ h => h.1

/-- A journal entry leaves the session alone. -/
theorem note_ensures (level : Level) (event : String) (fields : Json.Object) :
    Ensures (Talk.Holds uris) (note level event fields : SessionM τ Unit) (fun _ => Talk.Holds uris)
      Fault.Foreseen :=
  fun _ ht => ⟨ht.tidy, ht.ready, ht.opened⟩

end Session

end SymbolAtlas
