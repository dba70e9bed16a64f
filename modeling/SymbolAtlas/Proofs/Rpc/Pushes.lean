import SymbolAtlas.Proofs.Json.RoundTrip
import SymbolAtlas.Rpc.Sink

/-!
# What a sink makes of a message

Each notification and each request of a server comes to at most one notice, and each request to one
reply, whatever the listener of the sink does. The two are said here by the message alone, and the
handlers of the sink are shown to do just that.

* `Errand` — what a message is for its receiver, with `Connection.dispatch_eq`;
* `noticeOf?` — the notice that a message comes to;
* `Sink.after` — the sink after a notice;
* `Sink.reply` — the reply to a request, which has bytes if its id has, and is nested one level
  more.
-/

namespace SymbolAtlas

open Lsp

/-! ## Errands -/

/-- What a message is for its receiver. -/
inductive Errand
  | request (id : Json) (method : Text) (params : Json)
  | notification (method : Text) (params : Json)
  | response (id : Json)
  | unknown

/-- What has a method is a request or a notification, anything else with an id is a response. -/
def errand (m : Json.Object) : Errand :=
  match Fields.get? m "method", Fields.get? m "id" with
  | some (.str method), some id => .request id method (Json.fieldOrNull m "params")
  | some (.str method), none => .notification method (Json.fieldOrNull m "params")
  | _, some id => .response id
  | _, none => .unknown

/-- The id of a request. -/
def requestId? (m : Json.Object) : Option Json :=
  match errand m with
  | .request id .. => some id
  | _ => none

theorem fieldOrNull_id {m : Json.Object} {id : Json} (h : errand m = .response id) :
    Json.fieldOrNull m "id" = id := by
  unfold errand at h
  unfold Json.fieldOrNull
  split at h
  · cases h
  · cases h
  · next hid _ =>
    rw [hid]
    exact Errand.response.inj h
  · cases h

theorem Connection.dispatch_eq {σ : Type} (c : Connection σ) (m : Json.Object) :
    c.dispatch m =
      match errand m with
      | .request id method params => c.answer id method params
      | .notification method params => (none, c.handOn method params)
      | .response _ => (none, c.resolve m)
      | .unknown => (none, c.record .warning "rpc.unrecognized_message"
          [("keys", .texts (sortedNames m))]) := by
  unfold dispatch errand Fields.has
  cases Fields.get? m "method" with
  | none => cases Fields.get? m "id" <;> rfl
  | some v =>
    cases v with
    | str method => cases Fields.get? m "id" <;> rfl
    | _ => cases Fields.get? m "id" <;> rfl

/-! ## Notices -/

/-- The notice that a notification comes to, if its parameters decode. -/
def pushed? (method : Text) (params : Json) : Option Notice :=
  if method == "textDocument/publishDiagnostics" then
    (Decode.payload "PublishDiagnosticsParams" Decode.publishDiagnostics params).toOption.map
      fun p => .diagnostics p.uri p.diagnostics
  else if method == "window/logMessage" then
    (Decode.payload "LogMessageParams" Decode.announcement params).toOption.map .logMessage
  else if method == "window/showMessage" then
    (Decode.payload "ShowMessageParams" Decode.announcement params).toOption.map .showMessage
  else if method == "telemetry/event" then some (.telemetry params)
  else none

/-- The notice that a request comes to, if its parameters decode. -/
def asked? (method : Text) (params : Json) : Option Notice :=
  if method == "window/showMessageRequest" then
    (Decode.payload "ShowMessageRequestParams" Decode.prompt params).toOption.map
      fun p => .prompt p.message p.type (p.actions.getD [])
  else none

/-- The notice that a message comes to. -/
def noticeOf? (m : Json.Object) : Option Notice :=
  match errand m with
  | .request _ method params => asked? method params
  | .notification method params => pushed? method params
  | _ => none

namespace Sink

/-- How telling the listener about a notice fails, if it does. -/
def fails? (s : Sink) (n : Notice) : Option StreamFault :=
  s.listener.bind fun tell => tell (s.heard ++ [n])

/-- The sink after a notice, if there is one: it is recorded, whatever the listener does. -/
def after (s : Sink) : Option Notice → Sink
  | none => s
  | some n =>
    { s with
      notices := s.notices ++ [n]
      heard := if s.listener.isSome then s.heard ++ [n] else s.heard }

@[simp] theorem after_output (s : Sink) (n? : Option Notice) : (s.after n?).output = s.output := by
  cases n? <;> rfl

@[simp] theorem after_notices (s : Sink) (n? : Option Notice) :
    (s.after n?).notices = s.notices ++ n?.toList := by
  cases n? with
  | none => exact (List.append_nil _).symm
  | some n => rfl

/-- The sink with lines of console output. -/
def hear (s : Sink) (texts : List String) : Sink :=
  { s with output := s.output ++ texts }

theorem after_hear (s : Sink) (texts : List String) (n? : Option Notice) :
    (s.hear texts).after n? = (s.after n?).hear texts := by
  cases n? <;> rfl

/-- What a request is answered with: a failure only if it is a question to the user and the listener
fails. -/
def result (s : Sink) (method : Text) (params : Json) : Except StreamFault Json :=
  match (asked? method params).bind s.fails? with
  | some fault => .error fault
  | none => .ok (if method == "workspace/configuration" then configuration params else .null)

theorem note_eq (s : Sink) (n : Notice) :
    s.note n = (match s.fails? n with
      | none => .ok ()
      | some fault => .error fault, s.after (some n)) := by
  unfold note fails? after
  cases hl : s.listener with
  | none => simp
  | some tell =>
    dsimp only [Option.bind_some]
    cases tell (s.heard ++ [n]) <;> simp

theorem noteWith_owner (s : Sink) (n : Notice) (entries : List Entry) :
    (s.noteWith n entries).owner = s.after (some n) := by
  rw [noteWith, note_eq]
  cases s.fails? n <;> rfl

theorem noteWith_result (s : Sink) (n : Notice) (entries : List Entry) :
    (s.noteWith n entries).result = (match s.fails? n with
      | none => .ok ()
      | some fault => .error fault) := by
  rw [noteWith, note_eq]
  cases s.fails? n <;> rfl

/-! ## The handlers -/

/-- **A notification is recorded as what it comes to.** -/
theorem handleNotification_owner (method : Text) (params : Json) (s : Sink) :
    (handleNotification method params s).owner = s.after (pushed? method params) := by
  unfold handleNotification pushed?
  split
  · cases Decode.payload "PublishDiagnosticsParams" Decode.publishDiagnostics params with
    | error m => rfl
    | ok p => exact s.noteWith_owner _ _
  split
  · cases Decode.payload "LogMessageParams" Decode.announcement params with
    | error m => rfl
    | ok a => exact s.noteWith_owner _ _
  split
  · cases Decode.payload "ShowMessageParams" Decode.announcement params with
    | error m => rfl
    | ok a => exact s.noteWith_owner _ _
  split
  · exact s.noteWith_owner _ _
  · rfl

/-- **A request is recorded as what it comes to**, and answered in a neutral way. -/
theorem handleRequest_spec (method : Text) (params : Json) (s : Sink) :
    (handleRequest method params s).owner = s.after (asked? method params) ∧
      (handleRequest method params s).result = s.result method params := by
  unfold handleRequest result asked?
  split
  · next hmethod =>
    have hne : (method == ("workspace/configuration" : Text)) = false := by
      rw [eq_of_beq hmethod]
      decide
    unfold handlePrompt
    cases Decode.payload "ShowMessageRequestParams" Decode.prompt params with
    | error m =>
      rw [hne]
      exact ⟨rfl, rfl⟩
    | ok p =>
      refine ⟨s.noteWith_owner _ _, ?_⟩
      dsimp only
      rw [noteWith_result, hne, Except.toOption, Option.map_some, Option.bind_some]
      cases s.fails? _ <;> rfl
  · split <;> exact ⟨rfl, by simp [*]⟩

/-! ## Replies -/

/-- The field of a reply that holds the answer. -/
def replyField (s : Sink) (method : Text) (params : Json) : Text × Json :=
  match s.result method params with
  | .ok v => ("result", v)
  | .error fault => Connection.errorField Connection.internalError fault.text

/-- The reply to a request. -/
def reply (s : Sink) (id : Json) (method : Text) (params : Json) : Json :=
  .obj [("jsonrpc", .str "2.0"), ("id", id), s.replyField method params]

/-- Console output has no influence on the replies. -/
theorem reply_hear (s : Sink) (texts : List String) (id : Json) (method : Text) (params : Json) :
    (s.hear texts).reply id method params = s.reply id method params := rfl

theorem plain_result {s : Sink} {method : Text} {params v : Json}
    (h : s.result method params = .ok v) : v.Plain 1 := by
  unfold result at h
  split at h
  · cases h
  · obtain rfl := Except.ok.inj h
    split
    · unfold configuration
      split
      · refine .arr fun v hv => ?_
        obtain ⟨w, -, rfl⟩ := List.mem_map.1 hv
        exact .null
      · exact .arr (by simp)
    · exact .null

/-- What a reply says is written without loss, and hardly nested. -/
theorem plain_replyField (s : Sink) (method : Text) (params : Json) :
    ∃ (name : String) (v : Json), s.replyField method params = (Text.ofString name, v) ∧
      v.Plain 1 := by
  unfold replyField
  cases hresult : s.result method params with
  | ok v => exact ⟨_, v, rfl, plain_result hresult⟩
  | error fault =>
    have hnodup : [Text.ofString "code", Text.ofString "message"].Nodup := by decide
    refine ⟨_, _, rfl, .obj ?_ ?_ hnodup⟩
    · simp only [List.forall_mem_cons]
      exact ⟨.int (by decide), .str _, by simp⟩
    · simp only [List.forall_mem_cons]
      exact ⟨⟨_, rfl⟩, ⟨_, rfl⟩, by simp⟩

/-- **A reply has bytes if the id that it repeats has.** -/
theorem scalar_reply {id : Json} (h : id.Scalar) (s : Sink) (method : Text) (params : Json) :
    (s.reply id method params).Scalar := by
  obtain ⟨name, v, hfield, hplain⟩ := plain_replyField s method params
  have hversion : Json.Scalar (.str "2.0") := Json.Plain.scalar (.str _ : Json.Plain 0 _)
  rw [reply, hfield]
  refine .obj ?_
  simp only [List.forall_mem_cons]
  exact ⟨⟨⟨_, rfl⟩, hversion⟩, ⟨⟨_, rfl⟩, h⟩, ⟨⟨_, rfl⟩, hplain.scalar⟩, by simp⟩

/-- A reply is nested one level more than the id that it repeats, if that is nested at all. -/
theorem nesting_reply (s : Sink) (id : Json) (method : Text) (params : Json) :
    (s.reply id method params).nesting ≤ max id.nesting 1 + 1 := by
  obtain ⟨name, v, hfield, hplain⟩ := plain_replyField s method params
  have hle := hplain.nesting_le
  rw [reply, hfield]
  simp only [Json.nesting, Json.nestingFields]
  omega

/-- The reply to a message, if it is a request. -/
def reply? (s : Sink) (m : Json.Object) : Option Json :=
  match errand m with
  | .request id method params => some (s.reply id method params)
  | _ => none

/-- The replies to messages, each of which may have added to what the listener was told. -/
def replies (s : Sink) : List Json.Object → List Json
  | [] => []
  | m :: ms => (s.reply? m).toList ++ (s.after (noticeOf? m)).replies ms

/-- There is one reply for each request, in order, and it repeats the id. -/
theorem replies_ids (s : Sink) (ms : List Json.Object) :
    (s.replies ms).map (·.field? "id") = (ms.filterMap requestId?).map some := by
  induction ms generalizing s with
  | nil => rfl
  | cons m ms ih =>
    rw [replies, List.map_append, ih, reply?, List.filterMap_cons, requestId?]
    cases errand m <;> rfl

theorem exists_of_mem_replies {s : Sink} {ms : List Json.Object} {r : Json}
    (hr : r ∈ s.replies ms) : ∃ m ∈ ms, ∃ id ∈ requestId? m, ∃ (s' : Sink) (method : Text)
      (params : Json), r = s'.reply id method params := by
  induction ms generalizing s with
  | nil => cases hr
  | cons m ms ih =>
    rcases List.mem_append.1 hr with hr | hr
    · unfold reply? at hr
      cases herrand : errand m with
      | request id method params =>
        rw [herrand] at hr
        refine ⟨m, List.mem_cons_self .., id, ?_, s, method, params, List.mem_singleton.1 hr⟩
        rw [requestId?, herrand]
        rfl
      | _ => simp [herrand] at hr
    · obtain ⟨m', hm', hreply⟩ := ih hr
      exact ⟨m', List.mem_cons_of_mem _ hm', hreply⟩

theorem scalar_of_mem_replies {s : Sink} {ms : List Json.Object}
    (h : ∀ m ∈ ms, ∀ id ∈ requestId? m, id.Scalar) {r : Json} (hr : r ∈ s.replies ms) :
    r.Scalar := by
  obtain ⟨m, hm, id, hid, s', method, params, rfl⟩ := exists_of_mem_replies hr
  exact scalar_reply (h m hm id hid) s' method params

theorem nesting_of_mem_replies {s : Sink} {ms : List Json.Object} {depth : Nat}
    (hdepth : 2 ≤ depth) (h : ∀ m ∈ ms, ∀ id ∈ requestId? m, id.nesting < depth) {r : Json}
    (hr : r ∈ s.replies ms) : r.nesting ≤ depth := by
  obtain ⟨m, hm, id, hid, s', method, params, rfl⟩ := exists_of_mem_replies hr
  have hid := h m hm id hid
  have hreply := nesting_reply s' id method params
  omega

end Sink

theorem Frame.encode?_isSome {v : Json} (h : v.Scalar) : (encode? v).isSome := by
  obtain ⟨cs, hcs⟩ := Option.isSome_iff_exists.1 (v.isSome_toChars?_iff.2 h)
  rw [encode?, Text.Utf8.encode?, hcs]
  rfl

end SymbolAtlas
