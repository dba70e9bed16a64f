import SymbolAtlas.Proofs.Session.Conduct

/-!
# What a failed operation leaves

A session only moves forward. An operation that is rejected changes nothing and sends nothing; any
other failure closes the session, and no fault touches its documents or what it knows of the server.

* `Lawful` — what an operation may do to a session, with `Step.lawful`;
* `performAll_coherent` — every session that can be reached is coherent and its next operation is
  lawful.
-/

namespace SymbolAtlas

/-- What an operation may do to a session. -/
structure Lawful (t : Talk Line) (result : Except Fault Unit) (t' : Talk Line) : Prop where
  forward : t.session.phase.rank ≤ t'.session.phase.rank
  /-- A rejected operation changes nothing and sends nothing. -/
  rejected : ∀ f, result = .error (.failure f) → f.kind = .sessionState → t' = t
  /-- Any other failure is one of four and closes the session. -/
  failed : ∀ f, result = .error (.failure f) → f.kind ≠ .sessionState →
    f.kind ∈ [.handshake, .documentRead, .query, .transportClosed] ∧ t'.session.phase = .closed
  /-- No fault touches the documents and the capabilities. -/
  kept : ∀ fault, result = .error fault →
    t'.session.document = t.session.document ∧ t'.session.documents = t.session.documents ∧
      t'.session.capabilities = t.session.capabilities

theorem Phase.rank_le_closed (p : Phase) : p.rank ≤ Phase.closed.rank := by
  cases p <;> decide

theorem Session.rank_le_fallen (s : Session) (fault : Fault) :
    s.phase.rank ≤ (s.fallen fault).phase.rank := by
  obtain h | h := s.fallen_phase fault
  · exact h ▸ Phase.rank_le_closed _
  · exact h ▸ Nat.le_refl _

/-- What a stage that meets a fault does to the session is lawful. -/
theorem Lawful.of_fallen {t : Talk Line} {s : Session} {fault : Fault} {q : Line}
    {kinds : List Failure.Kind} (hrank : t.session.phase.rank ≤ s.phase.rank)
    (hkept : s.document = t.session.document ∧ s.documents = t.session.documents ∧
      s.capabilities = t.session.capabilities)
    (hkind : fault.Among kinds)
    (hkinds : kinds ⊆ [.handshake, .documentRead, .query, .transportClosed]) :
    Lawful t (.error fault) ⟨s.fallen fault, q⟩ where
  forward := Nat.le_trans hrank (s.rank_le_fallen fault)
  rejected := by
    rintro f ⟨⟩ hstate
    simpa [hstate] using hkinds (hkind f rfl)
  failed := by
    rintro f ⟨⟩ -
    exact ⟨hkinds (hkind f rfl), rfl⟩
  kept := by
    rintro e ⟨⟩
    simpa using hkept

/-- Success may change a session as long as it moves forward. -/
theorem Lawful.of_ok {t t' : Talk Line} (h : t.session.phase.rank ≤ t'.session.phase.rank) :
    Lawful t (.ok ()) t' where
  forward := h
  rejected := by rintro f ⟨⟩
  failed := by rintro f ⟨⟩
  kept := by rintro e ⟨⟩

theorem Phase.rank_of_ready {p : Phase} (h : p ∈ Phase.ready) :
    p.rank ≤ Phase.documentOpen.rank := by
  revert h
  cases p <;> decide

theorem Step.lawful {t t' : Talk Line} {result : Except Fault Unit} (hstep : Step t result t')
    (h : Sound t) : Lawful t result t' := by
  cases hstep with
  | rejected hkind =>
    exact
      { forward := Nat.le_refl _
        rejected := fun _ _ _ => rfl
        failed := by
          rintro f ⟨⟩ hne
          exact absurd hkind hne
        kept := fun _ _ => ⟨rfl, rfl, rfl⟩ }
  | stranded hphase hdocument =>
    obtain ⟨d, hd, -⟩ := h.current hphase
    simp [hdocument] at hd
  | ungreeted client reply fault hphase hlog hkind =>
    exact .of_fallen (by simp [hphase, Phase.rank]) ⟨rfl, rfl, rfl⟩ hkind (by simp)
  | greeted client v hphase hlog => exact .of_ok (by simp [hphase, Phase.rank])
  | unopened fault hphase hlog hkind =>
    exact .of_fallen (Nat.le_refl _) ⟨rfl, rfl, rfl⟩ hkind (by simp)
  | reopened hphase hd => exact .of_ok (Nat.le_refl _)
  | opened hphase hnew hlog => exact .of_ok (Phase.rank_of_ready hphase)
  | asked outcome hphase hcall hlog hkind =>
    cases result with
    | ok u => exact .of_ok (Nat.le_refl _)
    | error fault =>
      exact .of_fallen (Nat.le_refl _) ⟨rfl, rfl, rfl⟩ (hkind fault rfl) (by simp)
  | closed sent hsent hlog hkind =>
    exact
      { forward := Phase.rank_le_closed _
        rejected := fun f hf => absurd hf (hkind f)
        failed := fun f hf => absurd hf (hkind f)
        kept := fun _ _ => ⟨rfl, rfl, rfl⟩ }

/-- Every session that can be reached is coherent, and whatever is done with it next is lawful. -/
theorem performAll_coherent (timeout : Timeout) (oracle : Oracle) (ops : List Operation)
    (op : Operation) :
    let t := Operation.performAll ops (Talk.start timeout oracle)
    t.session.Coherent t.peer.log ∧ Lawful t (op.perform t).1 (op.perform t).2 := by
  have h := (Sound.start timeout oracle).performAll ops
  exact ⟨h.toCoherent, (op.step _).lawful h⟩

end SymbolAtlas
