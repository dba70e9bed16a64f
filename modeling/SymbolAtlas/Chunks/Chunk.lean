import SymbolAtlas.Chunks.Signature
import SymbolAtlas.Failure
import SymbolAtlas.Symbols.Node

/-!
# Method chunks

A method with its source and its place in the call graph, and the record of it that is given
out.

* `MethodChunk` — a method with its enclosing type, signature, source, callers and callees;
* `MethodChunk.qualifiedName` — the name that callers and callees are listed under;
* `ChunkRecord` — what is given out, with `ChunkRecord.wire` for its JSON form and
  `ChunkRecord.ofFields` to build one from named values.
-/

namespace SymbolAtlas

/-- A method of a repository. -/
structure MethodChunk where
  className : Text
  methodName : Text
  returnType : Text
  parameters : List Text
  code : String
  calledBy : List Text := []
  dependencies : List Text := []
  location : Option SymbolPlacement := none
  deriving DecidableEq, Repr

/-- The name of a method together with its type. -/
def MethodChunk.qualifiedName (c : MethodChunk) : Text :=
  c.className ++ "::" ++ c.methodName

/-- The selection range of a method, if it is known. -/
def MethodChunk.selection? (c : MethodChunk) : Option Lsp.Range :=
  c.location.bind SymbolPlacement.selection

/-- What is given out about a method. -/
structure ChunkRecord where
  className : Text
  methodName : Text
  returnType : Text
  parameters : List Text
  methodCode : Text
  calledBy : List Text
  dependencies : List Text
  deriving DecidableEq, Repr

/-- The record of a method. -/
def MethodChunk.record (c : MethodChunk) : ChunkRecord :=
  { className := c.className, methodName := c.methodName, returnType := c.returnType,
    parameters := c.parameters, methodCode := c.code, calledBy := c.calledBy,
    dependencies := c.dependencies }

namespace ChunkRecord

/-- The JSON form of a record. -/
def wire (r : ChunkRecord) : Json :=
  .obj [
    ("className", .str r.className),
    ("methodName", .str r.methodName),
    ("returnType", .str r.returnType),
    ("parameters", .texts r.parameters),
    ("methodCode", .str r.methodCode),
    ("calledBy", .texts r.calledBy),
    ("dependencies", .texts r.dependencies)]

/-- A text and nothing else. -/
def strictText : Json → Except Stray Text
  | .str s => .ok s
  | _ => .error .invalidFields

/-- A list of texts and nothing else. -/
def strictTexts : Json → Except Stray (List Text)
  | .arr items => items.mapM strictText
  | _ => .error .invalidFields

/-- The value under the first of two names, or else under the second. -/
def either (fields : Json.Object) (first second : String) : Option Json :=
  (Fields.get? fields first).or (Fields.get? fields second)

/-- A text that must be there. -/
def neededText (fields : Json.Object) (first second : String) : Except Stray Text :=
  match either fields first second with
  | some v => strictText v
  | none => .error .invalidFields

/-- A list of texts, empty if it is not there. -/
def optionalTexts (fields : Json.Object) (first second : String) :
    Except Stray (List Text) :=
  match either fields first second with
  | some v => strictTexts v
  | none => .ok []

/-- The record with the given fields, whose names may be written in either of two styles. -/
def ofFields (fields : Json.Object) : Except Stray ChunkRecord := do
  return {
    className := ← neededText fields "className" "class_name"
    methodName := ← neededText fields "methodName" "method_name"
    returnType := ← neededText fields "returnType" "return_type"
    parameters := ← optionalTexts fields "parameters" "parameters"
    methodCode := ← neededText fields "methodCode" "method_code"
    calledBy := ← optionalTexts fields "calledBy" "called_by"
    dependencies := ← optionalTexts fields "dependencies" "dependencies" }

end ChunkRecord

/-- The JSON form of a list of methods. -/
def MethodChunk.wireAll (cs : List MethodChunk) : Json :=
  .arr (cs.map fun c => c.record.wire)

end SymbolAtlas
