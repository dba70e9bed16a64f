import SymbolAtlas.Proofs.Run.Faults
import SymbolAtlas.Proofs.Server.Questions

/-!
# Runs that succeed

A run that succeeds had its whole conversation and closed its session, and all that was done to the
server after that was to take it down, which says nothing to it.

* `Run.takeDown_live` — the connection that taking down leaves;
* `Run.Succeeds` — the conversation of a run that succeeded, with `Run.withSession_succeeds`;
* `Run.result_conclude_ok` — the result of such a run.
-/

namespace SymbolAtlas.Run

open Session Connection

variable {α : Type}

/-! ## Taking down -/

/-- Taking down says nothing to the server. -/
theorem takeDown_live (p : ServerProcess) (timeout : Json) (s : LiveServer) (c : Closing α) :
    ∃ live, (takeDown p timeout s c).trace.live = some live ∧ Quiet s.connection live.connection := by
  obtain ⟨stopped, live, htaken, hwanes, -⟩ := takeDown_spec p timeout s c
  exact ⟨live, by rw [htaken]; rfl, hwanes.quiet⟩

/-! ## Whole runs -/

variable {env : Environment} {settings : ScanSettings} {last : RunStage} {a : α}

/-- The conversation of a run with a result, from a server that was just started to what is left of
it when everything is taken down. -/
inductive Succeeds (env : Environment) (settings : ScanSettings) (queries : RunM α) (a : α)
    (live : LiveServer) : Prop
  | mk {session : Session} {s : LiveServer} {t t' : Talk LiveServer}
      (hnew : Session.new settings.timeout = .ok session) (hunused : s.connection.Unused)
      (hsaid : exec (conversation env settings queries) ⟨session, s⟩ = (.ok a, t))
      (hclosed : exec close t = (.ok (), t'))
      (hquiet : Quiet t'.peer.connection live.connection)

theorem converse_ok {queries : RunM α} {session : Session} {s : LiveServer} {trace : Trace}
    (h : (converse env settings last queries session s trace).result = .ok a) :
    ∃ t t', exec (conversation env settings queries) ⟨session, s⟩ = (.ok a, t) ∧
      exec close t = (.ok (), t') ∧
      (converse env settings last queries session s trace).trace.live =
        some t'.peer.closeConnection := by
  rw [converse_eq] at h ⊢
  rcases hsaid : exec (conversation env settings queries) ⟨session, s⟩ with ⟨result, t⟩
  rw [hsaid] at h
  obtain rfl := (closeSession_kept ..).of_ok h
  rcases hclosed : exec (Session.close : SessionM LiveServer Unit) t with ⟨fault | u, t'⟩
  · rw [closeSession_of_error hclosed] at h
    cases h
  · refine ⟨t, t', rfl, hclosed, ?_⟩
    rw [closeSession_of_ok hclosed]
    rfl

theorem withServer_succeeds {queries : RunM α} {p : ServerProcess} {server : Server}
    {trace : Trace} (h : (withServer env settings last queries p server trace).result = .ok a) :
    ∃ live, (withServer env settings last queries p server trace).trace.live = some live ∧
      Succeeds env settings queries a live := by
  unfold withServer at h ⊢
  dsimp only at h ⊢
  split at h
  · cases (takeDown_kept ..).of_ok h
  · next session hnew =>
    obtain ⟨t, t', hsaid, hclosed, hleft⟩ := converse_ok ((takeDown_kept ..).of_ok h)
    rw [hleft, Option.getD_some]
    generalize converse env settings last queries session _ trace = c
    obtain ⟨live, hlive, hquiet⟩ := takeDown_live p settings.timeout t'.peer.closeConnection c
    have hclosing : Quiet t'.peer.connection t'.peer.closeConnection.connection :=
      quiet_shutdown ..
    exact ⟨live, hlive, .mk hnew (LiveServer.connect_unused ..) hsaid hclosed
      (hclosing.trans hquiet)⟩

/-- A run that succeeds had its whole conversation. -/
theorem withSession_succeeds {journal : List Entry} {queries : Installation → RunM α}
    (h : (withSession env settings last journal queries).result = .ok a) :
    ∃ live installation,
      (withSession env settings last journal queries).trace.live = some live ∧
      Succeeds env settings (queries installation) a live := by
  unfold withSession at h ⊢
  dsimp only at h ⊢
  split at h
  · cases h
  · next installation es hlocate =>
    split at h
    · cases h
    · next p server ls hlaunch =>
      obtain ⟨live, hlive, hsucceeds⟩ := withServer_succeeds h
      exact ⟨live, installation, hlive, hsucceeds⟩

/-- A run that succeeds makes its result of what the queries gave, and leaves the server as it is. -/
theorem result_conclude_ok {α β : Type} {finish : α → List Notice → β} {c : Closing α} {b : β}
    (h : (conclude finish c).result = .ok b) :
    ∃ a notices, c.result = .ok a ∧ finish a notices = b ∧
      (conclude finish c).trace.live = c.trace.live := by
  unfold conclude at h ⊢
  dsimp only at h ⊢
  split at h
  · next a ha =>
    cases h
    exact ⟨a, _, ha, rfl, rfl⟩
  · cases h

end SymbolAtlas.Run
