import SymbolAtlas.Lsp.Decode
import SymbolAtlas.Symbols.Build

/-!
# Reading answers

From the answer to a query to symbols or locations. `null` is an empty answer and anything else
but a list is a failure. In a list every element must be an object, which is checked first for all
of them, and must then decode; the first element that does not is the one named.

* `Answer.documentSymbols` — the roots of a document's symbols, in the order of the server;
* `Answer.workspaceSymbols` — the hits of a search;
* `Answer.locations` — places.
-/

namespace SymbolAtlas.Answer

open Lsp

/-- The fields of each element from a number on, or the number of the first that is no object. -/
def objectsFrom (item : Item) : Nat → List Json → Except Failure (List Json.Object)
  | _, [] => .ok []
  | index, v :: vs =>
    match v with
    | .obj fields =>
      match objectsFrom item (index + 1) vs with
      | .ok rest => .ok (fields :: rest)
      | .error e => .error e
    | _ => .error (.notAnObject item index)

/-- The elements of an answer, all of which must be objects. -/
def elements (item : Item) : Json → Except Failure (List Json.Object)
  | .null => .ok []
  | .arr vs => objectsFrom item 0 vs
  | v => .error (.unexpectedAnswer item v.kind)

/-- Every element from a number on decoded, or the failure of the first that does not decode. -/
def decodeFrom {α : Type} (item : Item) (decode : Json.Object → Except Malformed α) :
    Nat → List Json.Object → Except Failure (List α)
  | _, [] => .ok []
  | index, fields :: rest =>
    match decode fields with
    | .error cause => .error (.malformedItem item index cause)
    | .ok a =>
      match decodeFrom item decode (index + 1) rest with
      | .ok as => .ok (a :: as)
      | .error e => .error e

/-- All elements of an answer decoded. -/
def decodeAll {α : Type} (item : Item) (decode : Json.Object → Except Malformed α) (v : Json) :
    Except Failure (List α) :=
  match elements item v with
  | .error e => .error e
  | .ok fs => decodeFrom item decode 0 fs

/-- The node of an element of a document's symbols: flat if it has a location, else nested. -/
def documentNode (uri : Text) (fields : Json.Object) : Except Malformed SymbolNode :=
  if Fields.has fields "location" then
    (Decode.payload "SymbolInformation" Decode.symbolInformation (.obj fields)).map
      SymbolNode.ofInformation
  else
    (Decode.payload "DocumentSymbol" Decode.documentSymbol (.obj fields)).map
      (SymbolNode.ofDocumentSymbol uri)

/-- The node of a hit: a flat symbol if its location has a range. -/
def workspaceNode (fields : Json.Object) : Except Malformed SymbolNode :=
  if ((Json.fieldOrNull fields "location").field? "range").isSome then
    (Decode.payload "SymbolInformation" Decode.symbolInformation (.obj fields)).map
      SymbolNode.ofInformation
  else
    (Decode.payload "WorkspaceSymbol" Decode.workspaceSymbol (.obj fields)).map
      SymbolNode.ofWorkspaceSymbol

/-- The symbols of a document. -/
def documentSymbols (uri : Text) (v : Json) : Except Failure (List SymbolNode) :=
  decodeAll (.symbol uri) (documentNode uri) v

/-- The hits of a search. -/
def workspaceSymbols (v : Json) : Except Failure (List SymbolNode) :=
  decodeAll .workspaceSymbol workspaceNode v

/-- The places that an answer lists; `what` names the question. -/
def locations (what : Text) (v : Json) : Except Failure (List Location) :=
  decodeAll (.location what)
    (fun fields => Decode.payload "Location" Decode.location (.obj fields)) v

end SymbolAtlas.Answer
