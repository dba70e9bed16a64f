import SymbolAtlas.Session.Basic

/-!
# The documents of a session

A session has documents once one was opened, each kept under its own address, and the document that
was opened last is one of them.

* `Session.documentAt` — the document that a text makes, with `Session.documentOf` for a file;
* `Session.Tidy` — how the documents of a session fit its phase, kept by `Session.Tidy.withLast` and
  `Session.Tidy.withOpened`.
-/

namespace SymbolAtlas.Session

/-- The document that a text makes. -/
def documentAt (uri : Text) (languageId : Text) (text : String) : TextDocument :=
  { uri := uri, languageId := languageId, version := documentVersion, text := text }

/-- The document that a file makes, if it can be read and found. -/
def documentOf (disk : Disk) (languageId : Text) (path : Path) : Option TextDocument :=
  match disk.readText path, disk.resolve path with
  | .ok text, .ok resolved => some (documentAt resolved.uri languageId text)
  | _, _ => none

theorem documentOf_eq_some {disk : Disk} {path resolved : Path} {text : String}
    (htext : disk.readText path = .ok text) (hpath : disk.resolve path = .ok resolved)
    (languageId : Text) :
    documentOf disk languageId path = some (documentAt resolved.uri languageId text) := by
  rw [documentOf, htext, hpath]

/-- The session with a document, open already, as the one that was opened last. -/
def withLast (s : Session) (d : TextDocument) : Session :=
  { s with document := some d }

/-- The session with one more document. -/
def withOpened (s : Session) (d : TextDocument) : Session :=
  { s with documents := Fields.put s.documents d.uri d, document := some d,
           phase := .documentOpen }

/-- How the documents of a session fit its phase. -/
structure Tidy (s : Session) : Prop where
  /-- Before a document is opened there is none. -/
  empty : s.phase ∈ [.created, .initializing, .initialized] →
    s.documents = [] ∧ s.document = none
  /-- The document that was opened last is one of the open ones. -/
  current : s.phase = .documentOpen →
    ∃ d, s.document = some d ∧ Fields.get? s.documents d.uri = some d
  distinct : (Fields.names s.documents).Nodup
  /-- Every document is kept under its own address. -/
  entries : ∀ uri d, Fields.get? s.documents uri = some d → d.uri = uri ∧ d.version = documentVersion

namespace Tidy

variable {s s' : Session} {d : TextDocument}

/-- Without documents everything fits, as long as none is said to be open. -/
theorem of_empty (hdocuments : s.documents = []) (hdocument : s.document = none)
    (hphase : s.phase ≠ .documentOpen) : s.Tidy where
  empty _ := ⟨hdocuments, hdocument⟩
  current h := absurd h hphase
  distinct := by simp [hdocuments, Fields.names]
  entries uri d hd := by simp [hdocuments] at hd

theorem closed (h : s.Tidy) : ({ s with phase := .closed } : Session).Tidy where
  empty h := by simp at h
  current h := by cases h
  distinct := h.distinct
  entries := h.entries

/-- Where a document is open, the phase says so. -/
theorem phase_of_get? (h : s.Tidy) {uri : Text} (hphase : s.phase ∈ Phase.ready)
    (hd : Fields.get? s.documents uri = some d) : s.phase = .documentOpen := by
  by_cases hinitialized : s.phase = .initialized
  · rw [(h.empty (by simp [hinitialized])).1] at hd
    cases hd
  · simpa [Phase.ready, hinitialized] using hphase

theorem withLast (h : s.Tidy) {uri : Text} (hphase : s.phase ∈ Phase.ready)
    (hd : Fields.get? s.documents uri = some d) : (s.withLast d).Tidy where
  empty hempty := by simp [Session.withLast, h.phase_of_get? hphase hd] at hempty
  current _ := ⟨d, rfl, (h.entries uri d hd).1.symm ▸ hd⟩
  distinct := h.distinct
  entries := h.entries

theorem withOpened (h : s.Tidy) (hversion : d.version = documentVersion) :
    (s.withOpened d).Tidy where
  empty hempty := by simp [Session.withOpened] at hempty
  current _ := ⟨d, rfl, by simp [Session.withOpened, Fields.get?_put]⟩
  distinct := Fields.nodup_names_put h.distinct ..
  entries uri d' hd' := by
    rw [Session.withOpened, Fields.get?_put] at hd'
    split at hd'
    · next heq =>
      cases hd'
      exact ⟨heq, hversion⟩
    · exact h.entries uri d' hd'

end Tidy

end SymbolAtlas.Session
