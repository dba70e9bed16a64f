import SymbolAtlas.Server.Live

/-!
# Scripted servers

Servers that follow a script, for rehearsing whole runs: for each method what the server does when
a message of that method comes. What the script leaves out is as simple as can be: `exit` ends the
server, other requests are answered with `null`, and other notifications are ignored.

* `ScriptAct` — something in a script;
* `Script` — a script;
* `Script.server` — the server that follows it.
-/

namespace SymbolAtlas

/-- Something that a script tells a server to do. -/
inductive ScriptAct
  /-- Answers the request. -/
  | reply (v : Json)
  /-- Answers the request with an error. -/
  | replyError (e : Json)
  /-- Answers according to the document that the request is about. -/
  | byUri (answers : Json.Object)
  /-- Answers according to the document and the position that the request is about. -/
  | byPosition (answers : Json.Object)
  /-- Sends a message. -/
  | send (message : Json)
  /-- Does something else. -/
  | perform (a : ServerAct)

/-- A script for a server. -/
structure Script where
  onStart : List ScriptAct := []
  onMethod : Fields Text (List ScriptAct) := []

namespace Script

/-- Sends a message. One without bytes is not sent. -/
def message (m : Json) : ServerAct :=
  .emit ((Frame.encode? m).getD [])

/-- The response to a request with the given field. -/
def response (request : Json) (field : Text × Json) : ServerAct :=
  message (.obj [("jsonrpc", .str "2.0"), ("id", (request.field? "id").getD .null), field])

/-- A field within a field of an object. -/
def inner (v : Json) (outer name : String) : Json :=
  ((v.field? outer).bind fun w => w.field? name).getD .null

/-- The document that a request is about. -/
def uriOf (request : Json) : Text :=
  (inner ((request.field? "params").getD .null) "textDocument" "uri").display

/-- The document and the position that a request is about. -/
def positionOf (request : Json) : Text :=
  let params := (request.field? "params").getD .null
  let line := (inner params "position" "line").display
  let character := (inner params "position" "character").display
  uriOf request ++ ":" ++ line ++ ":" ++ character

/-- What the server does on one item of its script. -/
def act (request : Json) : ScriptAct → ServerAct
  | .reply v => response request ("result", v)
  | .replyError e => response request ("error", e)
  | .byUri answers => response request ("result", Json.fieldOrNull answers (uriOf request))
  | .byPosition answers =>
    response request ("result", Json.fieldOrNull answers (positionOf request))
  | .send m => message m
  | .perform a => a

/-- What the script says about a message. -/
def actsFor (s : Script) (message : Json) : List ScriptAct :=
  let method : Text := match message.field? "method" with
    | some (.str m) => m
    | _ => ""
  match Fields.get? s.onMethod method with
  | some acts => acts
  | none =>
    if method == "exit" then [.perform (.exit 0)]
    else if (message.field? "id").isSome then [.reply .null]
    else []

/-- The server that follows a script. -/
def server (s : Script) : Server :=
  { onStart := s.onStart.map (act .null)
    onMessage := fun _ message => (s.actsFor message).map (act message) }

end Script

end SymbolAtlas
