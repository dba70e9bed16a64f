import SymbolAtlas.Proofs.Rpc.Loss
import SymbolAtlas.Proofs.Session.Exec
import SymbolAtlas.Run.Basic

/-!
# The steps of taking down

What each step of taking a run down does: which step is noted, what is done to the child, what is
left of the server and its connection, and which fault, if any, replaces the result of the run.

* `Connection.Wanes` — what becomes of a connection that nobody uses any more;
* `Run.replaced` — the result of a run after a step of taking it down;
* `Run.closeSession_of_ok`, `Run.closeSession_of_error` — the session and the connection;
* `Run.stopChild_spec` — the child;
* `Run.awaitListener_spec` — the listener;
* `Run.takeDown_spec` — the child and then the listener.
-/

namespace SymbolAtlas

namespace Connection

variable {σ : Type} {c d : Connection σ}

/-- What becomes of a connection that nobody uses any more: journal entries are made, and the stream
may be over. -/
abbrev Wanes : Connection σ → Connection σ → Prop :=
  Relation.ReflTransGen fun c d => (∃ es, d = c.recordAll es) ∨ d = c.finish

theorem wanes_recordAll (c : Connection σ) (es : List Entry) : Wanes c (c.recordAll es) :=
  .single (.inl ⟨es, rfl⟩)

theorem wanes_finish (c : Connection σ) : Wanes c c.finish :=
  .single (.inr rfl)

theorem Wanes.quiet (h : Wanes c d) : Quiet c d := by
  induction h with
  | refl => exact .refl _
  | tail _ hstep ih =>
    obtain ⟨es, rfl⟩ | rfl := hstep
    · exact ih.trans (quiet_recordAll ..)
    · exact ih.trans (quiet_finish _)

theorem Wanes.future (h : Wanes c d) : Future c d := by
  induction h with
  | refl => exact .refl
  | tail _ hstep ih =>
    obtain ⟨es, rfl⟩ | rfl := hstep
    · exact ih.trans (moves_recordAll (P := fun _ => True) ..).future
    · exact ih.trans (moves_finish _).future

end Connection

namespace ServerProcess

variable {p : ServerProcess} {fault : Fault}

/-- A child that was ended without a fault has ended. -/
theorem status_of_halt {u : Unit} (h : p.halt.result = .ok u) :
    p.halt.child.status.isSome = true := by
  unfold halt at h ⊢
  dsimp only at h ⊢
  split
  · assumption
  · split
    · assumption
    · split
      · assumption
      · simp_all

theorem stop_of_halt_error (h : p.halt.result = .error fault) :
    p.stop.result = .error fault ∧ p.stop.calls = p.halt.calls := by
  unfold stop
  dsimp only
  rw [h]
  exact ⟨rfl, rfl⟩

theorem stop_of_halt_ok (h : p.halt.result = .ok ()) :
    p.stop.result = .ok (finish { p with child := p.halt.child }).result ∧
      p.stop.calls = p.halt.calls ++ (finish { p with child := p.halt.child }).calls := by
  unfold stop
  dsimp only
  rw [h]
  exact ⟨rfl, rfl⟩

end ServerProcess

/-! ## Traces -/

/-- The trace after the session and the connection were closed. -/
def Trace.closed (trace : Trace) (t : Talk LiveServer) : Trace :=
  { trace with
    teardown := trace.teardown ++ [.sessionClosed] ++ [.connectionClosed],
    session := some t.session, live := some t.peer.closeConnection }

/-- The trace after the child was stopped, `live` being the server then. -/
def Trace.stopped (trace : Trace) (p : ServerProcess) (s live : LiveServer) : Trace :=
  { trace with
    calls := trace.calls ++ (ServerProcess.stop { p with child := s.child }).calls,
    teardown := trace.teardown ++ [.childStopped], live := some live }

/-- The trace after the listener was waited for, `live` being the server then. -/
def Trace.awaited (trace : Trace) (live : LiveServer) : Trace :=
  { trace with teardown := trace.teardown ++ [.listenerAwaited], live := some live }

namespace Run

open Connection

variable {α ε : Type} {p : ServerProcess} {s : LiveServer} {c : Closing α}

/-- The result of a run after a step of taking it down has ended like this. -/
def replaced (stage : RunStage) (result : Except Interruption α) :
    Except Fault ε → Except Interruption α
  | .ok _ => result
  | .error fault => .error ⟨stage, fault⟩

/-! ## The session -/

/-- If closing the session meets no fault, the connection is closed too, and the result stays. -/
theorem closeSession_of_ok {last : RunStage} {result : Except Interruption α}
    {t t' : Talk LiveServer} (h : exec Session.close t = (.ok (), t')) (trace : Trace) :
    closeSession last result t trace =
      { result := result, stage := stageOf last result, trace := trace.closed t' } := by
  have hrun : (Session.close : SessionM LiveServer Unit).run.run t = (.ok (), t') := h
  unfold closeSession
  rw [hrun]
  rfl

theorem closeSession_of_error {last : RunStage} {result : Except Interruption α}
    {t t' : Talk LiveServer} {fault : Fault} (h : exec Session.close t = (.error fault, t'))
    (trace : Trace) :
    (closeSession last result t trace).result = .error ⟨stageOf last result, fault⟩ := by
  have hrun : (Session.close : SessionM LiveServer Unit).run.run t = (.error fault, t') := h
  unfold closeSession
  rw [hrun]
  rfl

/-! ## The child -/

@[simp] theorem afterHalt_child (s : LiveServer) (child : Child) :
    (afterHalt s child).child = child := by
  unfold afterHalt
  dsimp only
  split <;> rfl

theorem wanes_afterHalt (s : LiveServer) (child : Child) :
    Wanes s.connection (afterHalt s child).connection := by
  unfold afterHalt
  dsimp only
  split
  · exact wanes_finish _
  · exact .refl

/-- The listener of a server whose child has ended stops. -/
theorem stopped_afterHalt {child : Child} (hstarted : s.connection.listener ≠ .idle)
    (h : child.status.isSome = true) : (afterHalt s child).connection.listener = .stopped := by
  unfold afterHalt
  dsimp only
  rw [if_pos h]
  exact stopped_finish hstarted

/-- The server after its child was ended, with the journal entries about that. -/
def haltedServer (p : ServerProcess) (s : LiveServer) : LiveServer :=
  let halted := ServerProcess.halt { p with child := s.child }
  afterHalt (s.withConnection (s.connection.recordAll halted.entries)) halted.child

theorem wanes_haltedServer (p : ServerProcess) (s : LiveServer) :
    Wanes s.connection (haltedServer p s).connection :=
  (wanes_recordAll s.connection _).trans (wanes_afterHalt (s.withConnection _) _)

theorem stopChild_of_error (c : Closing α) {fault : Fault}
    (h : (ServerProcess.halt { p with child := s.child }).result = .error fault) :
    stopChild p s c =
      { c with result := .error ⟨c.stage, fault⟩,
               trace := c.trace.stopped p s (haltedServer p s) } := by
  unfold stopChild Trace.stopped
  rw [(ServerProcess.stop_of_halt_error h).2]
  dsimp only
  rw [h]
  rfl

theorem stopChild_of_ok (c : Closing α)
    (h : (ServerProcess.halt { p with child := s.child }).result = .ok ()) :
    stopChild p s c =
      { c with
        trace := c.trace.stopped p s
          ((haltedServer p s).withConnection ((haltedServer p s).connection.recordAll
            (ServerProcess.finish { p with child := (haltedServer p s).child }).entries)) } := by
  unfold stopChild Trace.stopped haltedServer
  rw [(ServerProcess.stop_of_halt_ok h).2]
  dsimp only
  rw [h]
  simp only [Closing.took, afterHalt_child, List.append_assoc]

/-- The child is stopped once, and a fault in that replaces the result. If there is none, the
listener has stopped. -/
theorem stopChild_spec (p : ServerProcess) (s : LiveServer) (c : Closing α) :
    ∃ live,
      stopChild p s c =
        { result := replaced c.stage c.result
            (ServerProcess.stop { p with child := s.child }).result,
          stage := c.stage, trace := c.trace.stopped p s live } ∧
      Wanes s.connection live.connection ∧
      (s.connection.listener ≠ .idle →
        ∀ code, (ServerProcess.stop { p with child := s.child }).result = .ok code →
          live.connection.listener = .stopped) := by
  have hwanes := wanes_haltedServer p s
  cases hhalt : (ServerProcess.halt { p with child := s.child }).result with
  | error fault =>
    rw [stopChild_of_error c hhalt, (ServerProcess.stop_of_halt_error hhalt).1]
    exact ⟨_, rfl, hwanes, nofun⟩
  | ok u =>
    rw [stopChild_of_ok c hhalt, (ServerProcess.stop_of_halt_ok hhalt).1]
    refine ⟨_, rfl, hwanes.trans (wanes_recordAll ..), fun hstarted _ _ => ?_⟩
    exact stopped_afterHalt hstarted (ServerProcess.status_of_halt hhalt)

/-! ## The listener -/

/-- The listener is waited for once, and if it cannot be waited for, that replaces the result. -/
theorem awaitListener_spec (timeout : Json) (ended : Bool) (h : c.trace.live = some s) :
    ∃ live,
      awaitListener timeout ended s c =
        { result := replaced c.stage c.result ((canAwait timeout ended).mapError .stray),
          stage := c.stage, trace := c.trace.awaited live } ∧
      Wanes s.connection live.connection ∧
      live.connection.listener = s.connection.listener := by
  have hstays : c.trace.awaited s = (c.took .listenerAwaited).trace := by
    rw [Trace.awaited, ← h]
    rfl
  unfold awaitListener
  dsimp only
  cases canAwait timeout ended with
  | error e => exact ⟨s, by rw [hstays]; rfl, .refl, rfl⟩
  | ok u =>
    dsimp only
    split
    · exact ⟨_, rfl, wanes_recordAll .., rfl⟩
    · exact ⟨s, by rw [hstays]; rfl, .refl, rfl⟩

/-! ## Both -/

/-- The child is stopped once and then the listener is waited for once. -/
theorem takeDown_spec (p : ServerProcess) (timeout : Json) (s : LiveServer) (c : Closing α) :
    ∃ stopped live,
      takeDown p timeout s c =
        { result := replaced c.stage
            (replaced c.stage c.result (ServerProcess.stop { p with child := s.child }).result)
            ((canAwait timeout (s.connection.listener == .stopped)).mapError .stray),
          stage := c.stage, trace := (c.trace.stopped p s stopped).awaited live } ∧
      Wanes s.connection live.connection ∧
      (s.connection.listener ≠ .idle →
        ∀ code, (ServerProcess.stop { p with child := s.child }).result = .ok code →
          live.connection.listener = .stopped) := by
  obtain ⟨stopped, hstop, hwanes, hstopped⟩ := stopChild_spec p s c
  unfold takeDown
  rw [hstop]
  obtain ⟨live, hawait, hwanes', hlistener⟩ := awaitListener_spec timeout
    (s.connection.listener == .stopped) (s := stopped)
    (c := ⟨replaced c.stage c.result (ServerProcess.stop { p with child := s.child }).result,
      c.stage, c.trace.stopped p s stopped⟩) rfl
  refine ⟨stopped, live, hawait, hwanes.trans hwanes', fun hstarted code hcode => ?_⟩
  exact hlistener.trans (hstopped hstarted code hcode)

end Run

end SymbolAtlas
