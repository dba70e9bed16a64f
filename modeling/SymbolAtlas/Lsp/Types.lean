import SymbolAtlas.Json.Basic

/-!
# Protocol types

The structures of the language server protocol that this library reads: places in documents,
symbols in their flat, nested and workspace-wide forms, and what a server reports on its own.
Numbered enumerations have their codes here; `Lsp/Decode.lean` and `Lsp/Encode.lean` relate the
structures to JSON. Texts come from the server.

* `Position`, `Range`, `Location` — places;
* `SymbolKind` — the 26 kinds of symbols, with `SymbolKind.code` and `SymbolKind.ofCode?`;
* `SymbolInformation`, `DocumentSymbol`, `WorkspaceSymbol` — symbols;
* `Diagnostic`, `PublishDiagnostics`, `Announcement`, `Prompt` — reports of the server.
-/

namespace SymbolAtlas.Lsp

/-! ## Places -/

/-- A place between two characters of a document, counted from zero. -/
structure Position where
  line : Nat
  character : Nat
  deriving DecidableEq, Repr

/-- The text between two positions. -/
structure Range where
  start : Position
  stop : Position
  deriving DecidableEq, Repr

/-- A range in a document. -/
structure Location where
  uri : Text
  range : Range
  deriving DecidableEq, Repr

/-! ## Enumerations -/

/-- What a symbol is. -/
inductive SymbolKind
  | file | module | namespaceKind | package | classKind | method | property | field
  | constructor | enum | interface | function | variable | constant | string | number
  | boolean | array | object | key | null | enumMember | struct | event | operator
  | typeParameter
  deriving DecidableEq, Repr

namespace SymbolKind

/-- The kinds in the order of their codes, which begin with one. -/
def all : List SymbolKind :=
  [.file, .module, .namespaceKind, .package, .classKind, .method, .property, .field,
    .constructor, .enum, .interface, .function, .variable, .constant, .string, .number,
    .boolean, .array, .object, .key, .null, .enumMember, .struct, .event, .operator,
    .typeParameter]

/-- The code of a kind. -/
def code (k : SymbolKind) : Nat :=
  match k with
  | .file => 1 | .module => 2 | .namespaceKind => 3 | .package => 4 | .classKind => 5
  | .method => 6 | .property => 7 | .field => 8 | .constructor => 9 | .enum => 10
  | .interface => 11 | .function => 12 | .variable => 13 | .constant => 14 | .string => 15
  | .number => 16 | .boolean => 17 | .array => 18 | .object => 19 | .key => 20 | .null => 21
  | .enumMember => 22 | .struct => 23 | .event => 24 | .operator => 25 | .typeParameter => 26

/-- The name of a kind. -/
def label (k : SymbolKind) : String :=
  match k with
  | .file => "File" | .module => "Module" | .namespaceKind => "Namespace"
  | .package => "Package" | .classKind => "Class" | .method => "Method"
  | .property => "Property" | .field => "Field" | .constructor => "Constructor"
  | .enum => "Enum" | .interface => "Interface" | .function => "Function"
  | .variable => "Variable" | .constant => "Constant" | .string => "String"
  | .number => "Number" | .boolean => "Boolean" | .array => "Array" | .object => "Object"
  | .key => "Key" | .null => "Null" | .enumMember => "EnumMember" | .struct => "Struct"
  | .event => "Event" | .operator => "Operator" | .typeParameter => "TypeParameter"

/-- The kind with a code. -/
def ofCode? (n : Int) : Option SymbolKind :=
  all.find? fun k => (k.code : Int) == n

end SymbolKind

/-- How grave a diagnostic is. -/
inductive Severity
  | error | warning | information | hint
  deriving DecidableEq, Repr

/-- The code of a severity. -/
def Severity.code : Severity → Nat
  | .error => 1 | .warning => 2 | .information => 3 | .hint => 4

/-- The severity with a code. -/
def Severity.ofCode? (n : Int) : Option Severity :=
  [Severity.error, .warning, .information, .hint].find? fun s => (s.code : Int) == n

/-- A remark on the code that a diagnostic is about. -/
inductive DiagnosticTag
  | unnecessary | deprecated
  deriving DecidableEq, Repr

/-- The code of a remark. -/
def DiagnosticTag.code : DiagnosticTag → Nat
  | .unnecessary => 1 | .deprecated => 2

/-- The remark with a code. -/
def DiagnosticTag.ofCode? (n : Int) : Option DiagnosticTag :=
  [DiagnosticTag.unnecessary, .deprecated].find? fun t => (t.code : Int) == n

/-- A remark on a symbol. -/
inductive SymbolTag
  | deprecated
  deriving DecidableEq, Repr

/-- The code of a remark on a symbol. -/
def SymbolTag.code : SymbolTag → Nat
  | .deprecated => 1

/-- The remark on a symbol with a code. -/
def SymbolTag.ofCode? (n : Int) : Option SymbolTag :=
  if n = 1 then some .deprecated else none

/-- What sort of message a server sends to its user. -/
inductive MessageType
  | error | warning | info | log | debug
  deriving DecidableEq, Repr

/-- The code of a sort of message. -/
def MessageType.code : MessageType → Nat
  | .error => 1 | .warning => 2 | .info => 3 | .log => 4 | .debug => 5

/-- The sort of message with a code. -/
def MessageType.ofCode? (n : Int) : Option MessageType :=
  [MessageType.error, .warning, .info, .log, .debug].find? fun t => (t.code : Int) == n

/-! ## Symbols -/

/-- A symbol in a flat list: it says where it is and what contains it. -/
structure SymbolInformation where
  location : Location
  name : Text
  kind : SymbolKind
  deprecated : Option Bool
  tags : Option (List SymbolTag)
  containerName : Option Text
  deriving DecidableEq, Repr

/-- A symbol of one document with the symbols in it. -/
structure DocumentSymbol where
  name : Text
  kind : SymbolKind
  range : Range
  selectionRange : Range
  detail : Option Text
  tags : Option (List SymbolTag)
  deprecated : Option Bool
  children : Option (List DocumentSymbol)

/-- Where a symbol of the workspace is: servers may leave out the range. -/
inductive SymbolPlace
  | full (location : Location)
  | document (uri : Text)
  deriving DecidableEq, Repr

/-- The document of a place. -/
def SymbolPlace.uri : SymbolPlace → Text
  | .full l => l.uri
  | .document uri => uri

/-- The range of a place, if the server gave it. -/
def SymbolPlace.range? : SymbolPlace → Option Range
  | .full l => some l.range
  | .document _ => none

/-- A symbol found in the workspace. -/
structure WorkspaceSymbol where
  location : SymbolPlace
  name : Text
  kind : SymbolKind
  data : Option Json
  tags : Option (List SymbolTag)
  containerName : Option Text

/-! ## Reports of the server -/

/-- Another place that a diagnostic has to do with. -/
structure RelatedInformation where
  location : Location
  message : Text
  deriving DecidableEq, Repr

/-- Something the server has to say about a range. -/
structure Diagnostic where
  range : Range
  message : Text
  severity : Option Severity
  code : Option Json
  codeDescription : Option Text
  source : Option Text
  tags : Option (List DiagnosticTag)
  relatedInformation : Option (List RelatedInformation)
  data : Option Json

/-- All diagnostics of a document. -/
structure PublishDiagnostics where
  uri : Text
  diagnostics : List Diagnostic
  version : Option Int

/-- A message to the user or to the log. -/
structure Announcement where
  type : MessageType
  message : Text
  deriving DecidableEq, Repr

/-- A question to the user, with the titles of the answers offered. -/
structure Prompt where
  type : MessageType
  message : Text
  actions : Option (List Text)
  deriving DecidableEq, Repr

end SymbolAtlas.Lsp
