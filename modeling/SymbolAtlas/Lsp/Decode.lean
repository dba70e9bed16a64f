import SymbolAtlas.Failure
import SymbolAtlas.Lsp.Types
import SymbolAtlas.Number.Numeral

/-!
# Decoding payloads

A payload is read field by field; fields that the structure does not have are ignored. Texts and
numbers are read generously: any value has a text, and a number may come as a truth value, as a
floating-point number or as a numeral. A list may come as anything that can be walked through,
which matters only for what is empty. Everything else must be as the structure says, and one bad
field anywhere makes the whole payload malformed.

* `Decoder` — a reader of one structure;
* `Decode.text`, `Decode.unsigned`, `Decode.integer`, `Decode.coded`, `Decode.listOf` — the rules
  for fields;
* `Decode.documentSymbol` and its siblings — the structures;
* `Decode.payload` — a whole payload, its failure named after the structure.
-/

namespace SymbolAtlas.Lsp

/-- A reader of one structure; its error says what is wrong. -/
abbrev Decoder (α : Type) := Json → Except String α

namespace Decode

/-! ## Fields -/

/-- Any value as text. -/
def text : Decoder Text :=
  fun v => .ok v.display

/-- Any value as it is. -/
def any : Decoder Json :=
  fun v => .ok v

/-- Any value as a truth value. -/
def truth : Decoder Bool :=
  fun v => .ok v.truthy

/-- A number of any spelling as an integer, the fraction being cut off. -/
def number? : Json → Option Int
  | .int n => some n
  | .bool b => some (if b then 1 else 0)
  | .float x => x.truncate?
  | .str s => s.toString?.bind Numeral.readInt?
  | _ => none

/-- A number between two bounds. -/
def between (low high : Int) : Decoder Int := fun v =>
  match number? v with
  | none => .error "not a number"
  | some n => if low ≤ n && n ≤ high then .ok n else .error "number out of range"

/-- The greatest integer of the protocol. -/
def maxInteger : Int := 2147483647

/-- A natural number of the protocol. -/
def unsigned : Decoder Nat := fun v =>
  (between 0 maxInteger v).map Int.toNat

/-- An integer of the protocol. -/
def integer : Decoder Int :=
  between (-2147483648) maxInteger

/-- The code that a value has as a member of an enumeration. -/
def code? : Json → Option Int
  | .int n => some n
  | .bool b => some (if b then 1 else 0)
  | .float x => x.toInt?
  | _ => none

/-- A member of an enumeration. -/
def coded {α : Type} (ofCode? : Int → Option α) : Decoder α := fun v =>
  match (code? v).bind ofCode? with
  | some a => .ok a
  | none => .error "not a member of the enumeration"

/-- What a value is walked through as. -/
def walked? : Json → Option (List Json)
  | .arr items => some items
  | .obj fields => some (fields.map fun f => .str f.1)
  | .str s => some (s.map fun c => .str [c])
  | _ => none

/-- A list, each element read alike. -/
def listOf {α : Type} (item : Decoder α) : Decoder (List α) := fun v =>
  match walked? v with
  | some items => items.mapM item
  | none => .error "not a list"

/-- The fields of an object. -/
def object : Decoder Json.Object
  | .obj fields => .ok fields
  | _ => .error "not an object"

/-- A field that must be there. -/
def required {α : Type} (fields : Json.Object) (name : String) (item : Decoder α) :
    Except String α :=
  match Fields.get? fields name with
  | some v => item v
  | none => .error s!"missing {name}"

/-- A field that may be missing or `null`. -/
def optional {α : Type} (fields : Json.Object) (name : String) (item : Decoder α) :
    Except String (Option α) :=
  match Fields.get? fields name with
  | none => .ok none
  | some .null => .ok none
  | some v => (item v).map some

/-! ## Structures -/

/-- A position. -/
def position : Decoder Position := fun v => do
  let fs ← object v
  return ⟨← required fs "line" unsigned, ← required fs "character" unsigned⟩

/-- A range. -/
def range : Decoder Range := fun v => do
  let fs ← object v
  return ⟨← required fs "start" position, ← required fs "end" position⟩

/-- A location. -/
def location : Decoder Location := fun v => do
  let fs ← object v
  return ⟨← required fs "uri" text, ← required fs "range" range⟩

/-- The address of a location without a range. -/
def documentUri : Decoder Text := fun v => do
  required (← object v) "uri" text

/-- Remarks on a symbol. -/
def symbolTags : Decoder (List SymbolTag) :=
  listOf (coded SymbolTag.ofCode?)

/-- A symbol in a flat list. -/
def symbolInformation : Decoder SymbolInformation := fun v => do
  let fs ← object v
  return {
    location := ← required fs "location" location
    name := ← required fs "name" text
    kind := ← required fs "kind" (coded SymbolKind.ofCode?)
    deprecated := ← optional fs "deprecated" truth
    tags := ← optional fs "tags" symbolTags
    containerName := ← optional fs "containerName" text }

/-- The deepest nesting of symbols that is read. -/
def maxDepth : Nat := 256

/-- A symbol with the symbols in it, at most so many levels of them. -/
def documentSymbolTo : Nat → Decoder DocumentSymbol
  | 0, _ => .error "nested too deeply"
  | depth + 1, v => do
    let fs ← object v
    return {
      name := ← required fs "name" text
      kind := ← required fs "kind" (coded SymbolKind.ofCode?)
      range := ← required fs "range" range
      selectionRange := ← required fs "selectionRange" range
      detail := ← optional fs "detail" text
      tags := ← optional fs "tags" symbolTags
      deprecated := ← optional fs "deprecated" truth
      children := ← optional fs "children" (listOf (documentSymbolTo depth)) }

/-- A symbol with the symbols in it. -/
def documentSymbol : Decoder DocumentSymbol :=
  documentSymbolTo maxDepth

/-- Where a symbol of the workspace is: a location if it has a range, else a bare address. -/
def symbolPlace : Decoder SymbolPlace := fun v => do
  let fs ← object v
  if Fields.has fs "range" then .full <$> location v else .document <$> documentUri v

/-- A symbol found in the workspace. -/
def workspaceSymbol : Decoder WorkspaceSymbol := fun v => do
  let fs ← object v
  return {
    location := ← required fs "location" symbolPlace
    name := ← required fs "name" text
    kind := ← required fs "kind" (coded SymbolKind.ofCode?)
    data := ← optional fs "data" any
    tags := ← optional fs "tags" symbolTags
    containerName := ← optional fs "containerName" text }

/-- Another place that a diagnostic has to do with. -/
def relatedInformation : Decoder RelatedInformation := fun v => do
  let fs ← object v
  return ⟨← required fs "location" location, ← required fs "message" text⟩

/-- The link in the description of a code. -/
def codeDescription : Decoder Text := fun v => do
  required (← object v) "href" text

/-- A diagnostic. -/
def diagnostic : Decoder Diagnostic := fun v => do
  let fs ← object v
  return {
    range := ← required fs "range" range
    message := ← required fs "message" text
    severity := ← optional fs "severity" (coded Severity.ofCode?)
    code := ← optional fs "code" any
    codeDescription := ← optional fs "codeDescription" codeDescription
    source := ← optional fs "source" text
    tags := ← optional fs "tags" (listOf (coded DiagnosticTag.ofCode?))
    relatedInformation := ← optional fs "relatedInformation" (listOf relatedInformation)
    data := ← optional fs "data" any }

/-- All diagnostics of a document. -/
def publishDiagnostics : Decoder PublishDiagnostics := fun v => do
  let fs ← object v
  return {
    uri := ← required fs "uri" text
    diagnostics := ← required fs "diagnostics" (listOf diagnostic)
    version := ← optional fs "version" integer }

/-- A message to the user or to the log. -/
def announcement : Decoder Announcement := fun v => do
  let fs ← object v
  return ⟨← required fs "type" (coded MessageType.ofCode?), ← required fs "message" text⟩

/-- The title of an answer offered to the user. -/
def actionItem : Decoder Text := fun v => do
  required (← object v) "title" text

/-- A question to the user. -/
def prompt : Decoder Prompt := fun v => do
  let fs ← object v
  return {
    type := ← required fs "type" (coded MessageType.ofCode?)
    message := ← required fs "message" text
    actions := ← optional fs "actions" (listOf actionItem) }

/-- A whole payload of the named structure. -/
def payload {α : Type} (typeName : String) (item : Decoder α) (v : Json) :
    Except Malformed α :=
  match item v with
  | .ok a => .ok a
  | .error detail => .error ⟨typeName, detail⟩

end Decode

end SymbolAtlas.Lsp
