import SymbolAtlas.Disk.Access

/-!
# Resolved paths

The resolved form of a path is absolute and free of links and of `..`. Components that do not
exist are kept. The components are taken one by one onto a place that is resolved already, so that
`..` takes back the last one; a link is replaced by the place that its target resolves to, which is
found out once for each link.

A link that is met again while its own target is being resolved leads back to itself. There the
resolving ends: the link and everything that was still to come are taken as they are written, and
`..` in them takes back the component before it. What comes out of this may be a fine path. If it
is not, because the links still do not come to an end, there is no resolved form.

* `Disk.resolve` — the resolved form of a path;
* `ResolveError` — why there is none.
-/

namespace SymbolAtlas

/-- Why a path has no resolved form. -/
inductive ResolveError
  /-- The links on the way lead back to themselves. -/
  | loop
  /-- The path holds the character NUL, which no name may hold. -/
  | nul
  /-- The path has a surrogate that stands for no byte. -/
  | notEncodable
  /-- Links lead to links too many times. -/
  | tooDeep
  deriving DecidableEq, Repr

namespace Path

/-- The path without its last component; `..` below a path that has none to take back. -/
def up (p : Path) : Path :=
  match p.root, p.parts.getLast? with
  | .here, none => p.below upName
  | .here, some last =>
    if last = upName then p.below upName else { p with parts := p.parts.dropLast }
  | _, _ => { p with parts := p.parts.dropLast }

/-- Takes back a component for each `..`. -/
def collapseOnto : List Text → List Text → List Text
  | done, [] => done.reverse
  | done, name :: rest =>
    if name = upName then collapseOnto done.tail rest else collapseOnto (name :: done) rest

/-- The path without `..`, each of which takes back the component before it. -/
def collapse (p : Path) : Path :=
  { p with parts := collapseOnto [] p.parts }

end Path

namespace Disk

/-- The links met so far, each with the place that it resolves to; nothing stands for a link whose
target is being resolved. -/
abbrev Met := List (Path × Option Path)

/-- Where resolving comes to. -/
inductive Landing
  /-- The resolved place. -/
  | place (p : Path)
  /-- A text that begins with a link that leads back to itself. -/
  | written (text : Text)

/-- A text below another one; a text that begins with a slash stands by itself. -/
def textBelow (text rest : Text) : Text :=
  match rest with
  | .char '/' :: _ => rest
  | _ => if text.getLast? = some Path.slash then text ++ rest else text ++ Path.slash :: rest

/-- Takes components onto a resolved place. A link that was not met before is handed on together
with the place of its directory. -/
def resolveWith (d : Disk)
    (onLink : Met → Path → Text → Except ResolveError (Landing × Met)) :
    Met → Path → List Text → Except ResolveError (Landing × Met)
  | met, here, [] => .ok (.place here, met)
  | met, here, name :: rest =>
    if name.isEmpty || name = Path.hereName then resolveWith d onLink met here rest
    else if name = Path.upName then resolveWith d onLink met here.up rest
    else if !name.hasFileBytes then .error .notEncodable
    else if name.contains (.char '\x00') then .error .nul
    else
      let next := here.below name
      match d.linkAt here name with
      | none => resolveWith d onLink met next rest
      | some target =>
        match met.lookup next with
        | some (some place) => resolveWith d onLink met place rest
        | some none => .ok (.written (textBelow next.text (Text.joinPieces [Path.slash] rest)), met)
        | none =>
          match onLink ((next, none) :: met) here target with
          | .error e => .error e
          | .ok (.written text, met) =>
            .ok (.written (textBelow text (Text.joinPieces [Path.slash] rest)), met)
          | .ok (.place p, met) => resolveWith d onLink ((next, some p) :: met) p rest

/-- Resolves a text from a place, links leading to links at most `depth` times. -/
def resolveText (d : Disk) : Nat → Met → Path → Text → Except ResolveError (Landing × Met)
  | 0 => fun _ _ _ => .error .tooDeep
  | depth + 1 => fun met here text =>
    resolveWith d (resolveText d depth) met
      (if (Path.parse text).isAbsolute then ⟨.top, []⟩ else here) (Text.pieces Path.slash text)

/-- The most times that links lead to links: of the thousand calls that may be under way at once,
those that are left for the links when a path is resolved. -/
def maxNesting : Nat := 970

/-- The path from the root directory. -/
def absolute (d : Disk) (p : Path) : Path :=
  if p.isAbsolute then p else ⟨.top, d.workingDir ++ p.parts⟩

/-- The resolved form of a path. -/
def resolve (d : Disk) (p : Path) : Except ResolveError Path := do
  let (landing, _) ← resolveText d maxNesting [] ⟨.here, []⟩ p.text
  let written := match landing with
    | .place p => p
    | .written text => Path.parse text
  let resolved := (d.absolute written).collapse
  match d.find resolved with
  | .error .loop => throw .loop
  | .error .nul => throw .nul
  | .error .notEncodable => throw .notEncodable
  | _ => return resolved

/-- The disk with a file at the place that the path names. -/
def writeFile (d : Disk) (p : Path) (bytes : List UInt8) : Disk :=
  match d.resolve p with
  | .ok q => { d with tree := d.tree.put (.file bytes) q.parts }
  | .error _ => d

end Disk

end SymbolAtlas
