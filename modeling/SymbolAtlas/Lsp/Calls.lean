import SymbolAtlas.Lsp.Encode

/-!
# Outgoing calls

The requests and notifications that a client sends: a method and, unless the method takes none,
its parameters.

* `Call` — a method with its parameters;
* `Call.handshake`, `Call.didOpen`, `Call.documentSymbol`, … — the calls of a session;
* `ClientInfo` — what the client says about itself in the handshake.
-/

namespace SymbolAtlas.Lsp

/-- A method with its parameters, which are never nested deeply. -/
structure Call where
  method : String
  params : Option Json
  shallow : ∀ v ∈ params, v.nesting ≤ 7 := by
    simp [Json.nesting, Json.nestingAll, Json.nestingFields]

/-- What the client says about itself in the handshake. -/
structure ClientInfo where
  /-- The process the server belongs to. -/
  processId : Int
  /-- The address of the workspace. -/
  rootUri : String
  /-- The name of the workspace. -/
  rootName : Text

/-- The name under which the client presents itself. -/
def clientName : String := "symscan"

/-- The version under which the client presents itself. -/
def clientVersion : String := "0.1.0"

/-- What the client can do: read nested symbols, and nothing that changes while it runs. -/
def clientCapabilities : Json :=
  .obj [
    ("workspace", .obj [
      ("symbol", .obj [("dynamicRegistration", .bool false)]),
      ("workspaceFolders", .bool true),
      ("configuration", .bool true)]),
    ("textDocument", .obj [
      ("synchronization", .obj [
        ("dynamicRegistration", .bool false),
        ("didSave", .bool false)]),
      ("references", .obj [("dynamicRegistration", .bool false)]),
      ("documentSymbol", .obj [("hierarchicalDocumentSymbolSupport", .bool true)])])]

/-- The parameters of the handshake. -/
def handshakeParams (client : ClientInfo) : Json :=
  .obj [
    ("capabilities", clientCapabilities),
    ("processId", .int client.processId),
    ("rootPath", .null),
    ("rootUri", .str client.rootUri),
    ("workspaceFolders", .arr [
      .obj [("uri", .str client.rootUri), ("name", .str client.rootName)]]),
    ("clientInfo", .obj [("name", .str clientName), ("version", .str clientVersion)])]

/-- The parameters of a handshake that says nothing about the client. -/
def bareHandshakeParams : Json :=
  .obj [
    ("capabilities", .obj []),
    ("processId", .null),
    ("rootPath", .null),
    ("rootUri", .null),
    ("workspaceFolders", .null)]

/-- The address of a document, as a parameter. -/
def documentId (uri : Text) : Json :=
  .obj [("uri", .str uri)]

@[simp] theorem nesting_documentId (uri : Text) : (documentId uri).nesting = 1 := by
  simp [documentId, Json.nesting, Json.nestingFields]

namespace Call

/-- The handshake with given parameters. -/
def handshakeWith (params : Json) (h : params.nesting ≤ 7) : Call :=
  ⟨"initialize", some params, by simpa using h⟩

/-- The handshake. -/
def handshake (client : ClientInfo) : Call :=
  handshakeWith (handshakeParams client) (by
    simp [handshakeParams, clientCapabilities, Json.nesting, Json.nestingAll, Json.nestingFields])

/-- The end of the handshake. -/
def initialized : Call where
  method := "initialized"
  params := some (.obj [])

/-- The text of a document that is from now on the client's to change. -/
def didOpen (uri : Text) (languageId : Text) (version : Int) (text : String) : Call where
  method := "textDocument/didOpen"
  params := some (.obj [
    ("textDocument", .obj [
      ("uri", .str uri),
      ("languageId", .str languageId),
      ("version", .int version),
      ("text", .str text)])])

/-- The symbols of a document. -/
def documentSymbol (uri : Text) : Call where
  method := "textDocument/documentSymbol"
  params := some (.obj [("textDocument", documentId uri)])

/-- The symbols of the workspace that match a query. -/
def workspaceSymbol (query : String) : Call where
  method := "workspace/symbol"
  params := some (.obj [("query", .str query)])

/-- The places that refer to what stands at a position. -/
def references (uri : Text) (p : Position) (includeDeclaration : Bool) : Call where
  method := "textDocument/references"
  params := some (.obj [
    ("context", .obj [("includeDeclaration", .bool includeDeclaration)]),
    ("textDocument", documentId uri),
    ("position", Encode.position p)])

/-- The end of all queries. -/
def shutdown : Call where
  method := "shutdown"
  params := none

/-- The end of the server. -/
def exit : Call where
  method := "exit"
  params := none

end Call

end SymbolAtlas.Lsp
