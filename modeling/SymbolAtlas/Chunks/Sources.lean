import SymbolAtlas.Disk.Pattern
import SymbolAtlas.Failure

/-!
# Source files

The files of a repository whose names end in a given way, at any depth, hidden ones included. A
link to a file counts as a file; a link to a directory is not entered. The end of the name may have
wildcards in it, and slashes that lead on into directories. The order is that of the components, so
`a/b` comes before `a-b`.

* `Disk.sourceFiles` — the files below a directory.
-/

namespace SymbolAtlas

/-- Whether a list of components comes before another or is the same. -/
def componentsLe (names names' : List Text) : Bool :=
  Text.lexLe Text.le names names'

/-- The usual end of a source file's name. -/
def sourceSuffix : Text := ".java"

/-- The pattern of the files, at any depth, whose names end in `suffix`. -/
def sourcePattern (suffix : Text) : Option (List PatternStep) :=
  (PathPattern.parse (.char '*' :: suffix)).map (.everywhere :: ·)

namespace Disk

/-- The files that match the steps from `root` on, in ascending order; none if `root` is no
directory. -/
def filesMatching (d : Disk) (room : Nat) (steps : List PatternStep) (root : Path) :
    Except SearchError (List Path) := do
  if ← asked (d.isDir root) then
    let files ← d.matching room steps root
    return files.mergeSort fun p q => componentsLe p.parts q.parts
  return []

/-- The files below `root` whose names end in `suffix`, in ascending order. Searching takes up a
call for each directory in a directory; `room` calls are left. -/
def sourceFiles (d : Disk) (room : Nat) (root : Path) (suffix : Text) :
    Except Fault (List Path) :=
  match sourcePattern suffix with
  | none => .error (.stray .badPattern)
  | some steps => (d.filesMatching room steps root).mapError Fault.ofSearch

end Disk

end SymbolAtlas
