import SymbolAtlas.Session.Basic

/-!
# Running the steps of a session

What a step does from a given talk, as a pair of its result and the talk after it, and the rules by
which the result of a step comes from the results of its parts. Later modules use these rules and
never the monad.

* `exec` — the result of a computation with a state and faults, with `exec_bind` and `exec_tryCatch`;
* `exec_ok_of_bind` — a sequence that succeeds has parts that succeed;
* `Session.fallen` — the session after a fault, with `exec_closing`;
* `Reply.verdict` — what a reply amounts to for whoever waits for it, with `exec_await`;
* `Fault.Among` — the classes that a fault may be of, with `Reply.verdict_among`;
* `Peer.noted` — a peer after some journal entries.
-/

namespace SymbolAtlas

/-! ## Computations with a state and faults -/

section Exec

variable {ε σ α β : Type}

/-- What a computation with a state and faults does from a state. -/
def exec (m : ExceptT ε (StateM σ) α) (s : σ) : Except ε α × σ :=
  m.run.run s

@[simp] theorem exec_pure (a : α) (s : σ) :
    exec (pure a : ExceptT ε (StateM σ) α) s = (.ok a, s) := rfl

@[simp] theorem exec_get (s : σ) : exec (get : ExceptT ε (StateM σ) σ) s = (.ok s, s) := rfl

@[simp] theorem exec_modifyGet (f : σ → α × σ) (s : σ) :
    exec (modifyGet f : ExceptT ε (StateM σ) α) s = (.ok (f s).1, (f s).2) := rfl

theorem exec_bind (m : ExceptT ε (StateM σ) α) (f : α → ExceptT ε (StateM σ) β) (s : σ) :
    exec (m >>= f) s = match exec m s with
      | (.ok a, s) => exec (f a) s
      | (.error e, s) => (.error e, s) := by
  unfold exec
  rw [ExceptT.run_bind, StateT.run_bind]
  obtain ⟨r, s'⟩ := m.run.run s
  cases r <;> rfl

theorem exec_tryCatch (m : ExceptT ε (StateM σ) α) (f : ε → ExceptT ε (StateM σ) α) (s : σ) :
    exec (tryCatch m f) s = match exec m s with
      | (.ok a, s) => (.ok a, s)
      | (.error e, s) => exec (f e) s := by
  change (ExceptT.tryCatch m f).run.run s = _
  rw [ExceptT.tryCatch, ExceptT.run_mk, StateT.run_bind]
  change ((exec m s) >>= _ : Id _) = _
  obtain ⟨r, s'⟩ := exec m s
  cases r <;> rfl

variable {m : ExceptT ε (StateM σ) α} {f : α → ExceptT ε (StateM σ) β} {s s' : σ}

/-- A sequence that succeeds has a first part that succeeds and a second part that goes on from
there. -/
theorem exec_ok_of_bind {b : β} (h : exec (m >>= f) s = (.ok b, s')) :
    ∃ a s₁, exec m s = (.ok a, s₁) ∧ exec (f a) s₁ = (.ok b, s') := by
  rw [exec_bind] at h
  split at h
  · next a s₁ hm => exact ⟨a, s₁, hm, h⟩
  · cases h

end Exec

/-! ## Parts of steps -/

theorem mapError_ok {ε ε' α : Type} (f : ε → ε') (a : α) :
    (Except.ok a : Except ε α).mapError f = .ok a := rfl

/-- The peer after journal entries were made. -/
def Peer.noted {τ : Type} [Peer τ] (es : List Entry) (p : τ) : τ :=
  es.foldl (fun p e => Peer.record e p) p

/-- What a reply amounts to for whoever waits at most for the given time. -/
def Reply.verdict (timeout : Timeout) (timedOut : Text → Failure) (rejected : Refusal → Failure) :
    Reply → Except Fault Json
  | .result v => .ok v
  | .refused r => .error (.failure (rejected r))
  | .lost l => .error (.failure (.lost l))
  | .raised kind text => .error (.stray (.raised kind text))
  | .silent =>
    match timeout.wait with
    | .ok () => .error (.failure (timedOut timeout.display))
    | .error e => .error (.stray e)

theorem Reply.verdict_eq_ok_iff {timeout : Timeout} {timedOut : Text → Failure}
    {rejected : Refusal → Failure} {reply : Reply} {v : Json} :
    reply.verdict timeout timedOut rejected = .ok v ↔ reply = .result v := by
  cases reply with
  | silent =>
    unfold Reply.verdict
    cases timeout.wait <;> simp
  | _ => simp [Reply.verdict]

/-- The fault is of one of the classes, if it is a failure at all. -/
def Fault.Among (kinds : List Failure.Kind) (fault : Fault) : Prop :=
  ∀ f, fault = .failure f → f.kind ∈ kinds

theorem Fault.Among.mono {kinds kinds' : List Failure.Kind} {fault : Fault}
    (h : fault.Among kinds) (hsub : kinds ⊆ kinds') : fault.Among kinds' :=
  fun f hf => hsub (h f hf)

/-- A reply that is no answer amounts to a loss, or to one of the failures given for it. -/
theorem Reply.verdict_among {timeout : Timeout} {timedOut : Text → Failure}
    {rejected : Refusal → Failure} {kind : Failure.Kind} {reply : Reply} {fault : Fault}
    (htimedOut : ∀ text, (timedOut text).kind = kind) (hrejected : ∀ r, (rejected r).kind = kind)
    (h : reply.verdict timeout timedOut rejected = .error fault) :
    fault.Among [kind, .transportClosed] := by
  rintro f rfl
  cases reply with
  | result v => cases h
  | refused r =>
    cases h
    simp [hrejected]
  | lost l =>
    cases h
    simp [Failure.kind]
  | raised kind text => cases h
  | silent =>
    unfold Reply.verdict at h
    cases hwait : timeout.wait with
    | ok u =>
      rw [hwait] at h
      cases h
      simp [htimedOut]
    | error e =>
      rw [hwait] at h
      cases h

namespace Session

/-- The session after a stage has met a fault: a failure closes it. -/
def fallen (s : Session) : Fault → Session
  | .failure _ => { s with phase := .closed }
  | .stray _ => s

/-- A fault closes the session or leaves its phase. -/
theorem fallen_phase (s : Session) (e : Fault) :
    (s.fallen e).phase = .closed ∨ (s.fallen e).phase = s.phase := by
  cases e with
  | failure f => exact .inl rfl
  | stray e => exact .inr rfl

@[simp] theorem fallen_documents (s : Session) (e : Fault) :
    (s.fallen e).documents = s.documents := by
  cases e <;> rfl

@[simp] theorem fallen_document (s : Session) (e : Fault) :
    (s.fallen e).document = s.document := by
  cases e <;> rfl

@[simp] theorem fallen_capabilities (s : Session) (e : Fault) :
    (s.fallen e).capabilities = s.capabilities := by
  cases e <;> rfl

variable {τ α : Type} (t : Talk τ)

@[simp] theorem exec_current : exec current t = (.ok t.session, t) := rfl

@[simp] theorem exec_update (f : Session → Session) :
    exec (update f) t = (.ok (), { t with session := f t.session }) := rfl

@[simp] theorem exec_enter (phase : Phase) :
    exec (enter phase) t = (.ok (), { t with session := { t.session with phase := phase } }) := rfl

@[simp] theorem exec_failWith (f : Failure) :
    exec (failWith f : SessionM τ α) t = (.error (.failure f), t) := rfl

theorem exec_expect (expected : List Phase) (operation : String) :
    exec (expect expected operation) t =
      if t.session.phase ∈ expected then (.ok (), t)
      else (.error (.failure (.wrongPhase operation t.session.phase expected)), t) := by
  unfold expect
  rw [exec_bind, exec_current]
  dsimp only
  split <;> rfl

theorem exec_closing (step : SessionM τ α) :
    exec (closing step) t = match exec step t with
      | (.ok a, t) => (.ok a, t)
      | (.error e, t) => (.error e, { t with session := t.session.fallen e }) := by
  unfold closing
  rw [exec_tryCatch]
  obtain ⟨e | a, t'⟩ := exec step t
  · cases e <;> rfl
  · rfl

theorem exec_accept (read : Except Failure α) :
    exec (accept read) t = (read.mapError .failure, t) := by
  cases read <;> rfl

theorem exec_await (reply : Reply) (timedOut : Text → Failure) (rejected : Refusal → Failure) :
    exec (await reply timedOut rejected) t =
      (reply.verdict t.session.timeout timedOut rejected, t) := by
  cases reply with
  | silent =>
    unfold await Reply.verdict
    rw [exec_bind, exec_current]
    dsimp only
    cases t.session.timeout.wait <;> rfl
  | _ => rfl

theorem exec_resolve (disk : Disk) (p : Path) :
    exec (resolve disk p) t = ((disk.resolve p).mapError fun e => .stray (.ofResolve e), t) := by
  unfold resolve
  cases disk.resolve p <;> rfl

variable [Peer τ]

@[simp] theorem exec_note (level : Level) (event : String) (fields : Json.Object) :
    exec (note level event fields) t =
      (.ok (), { t with peer := Peer.noted [⟨level, event, fields⟩] t.peer }) := rfl

@[simp] theorem exec_ask (call : Lsp.Call) :
    exec (ask call) t =
      (.ok (Peer.request call t.peer).1, { t with peer := (Peer.request call t.peer).2 }) := rfl

@[simp] theorem exec_tell (call : Lsp.Call) :
    exec (tell call) t =
      ((Peer.notify call t.peer).1, { t with peer := (Peer.notify call t.peer).2 }) := by
  unfold tell
  rw [exec_bind, exec_modifyGet]
  obtain ⟨e | u, p⟩ := Peer.notify call t.peer <;> rfl

end Session

end SymbolAtlas
