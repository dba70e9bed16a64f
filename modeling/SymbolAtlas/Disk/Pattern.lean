import SymbolAtlas.Disk.Access
import SymbolAtlas.Text.Wildcard

/-!
# Path patterns

A pattern for paths has steps between slashes. The step `**` stands for any number of directories,
which are not entered through links; any other step with wildcards for every entry with a matching
name; and one without wildcards for the entry of that name, `..` being one. Where more steps follow,
only directories count, those behind links included, and a slash at the end asks for a directory.

* `PatternStep`, `PathPattern.parse` — the steps of a pattern;
* `SearchError` — why a search ends early;
* `Disk.matching` — the files whose paths match the steps from a directory on.
-/

namespace SymbolAtlas

/-- A step of a pattern. -/
inductive PatternStep
  /-- Where the steps have led, and every directory below it. -/
  | everywhere
  /-- Every entry whose name the parts cover. -/
  | wild (parts : List Wildcard)
  /-- The entry with the name. -/
  | named (name : Text)
  /-- Where the steps have led, which is a directory. -/
  | stay
  deriving DecidableEq, Repr

/-- The step that a text between slashes writes. In a longer text `**` must not occur. -/
def PatternStep.parse (t : Text) : Option PatternStep :=
  if t == doubleStar then some .everywhere
  else if (Text.cutAtText doubleStar t).isSome then none
  else if Wildcard.isWild t then some (.wild (Wildcard.parse t))
  else some (.named t)
where
  /-- The text of the step that stands for any number of directories. -/
  doubleStar : Text := [.char '*', .char '*']

/-- The steps that a text writes. -/
def PathPattern.parse (t : Text) : Option (List PatternStep) :=
  ((Path.components t).mapM PatternStep.parse).map fun steps =>
    if t.getLast? = some Path.slash then steps ++ [.stay] else steps

namespace Tree

mutual

/-- The directories of a tree that is at `p`, the tree itself among them. -/
def dirsFrom (p : Path) : Tree → List Path
  | .dir entries => p :: dirsIn p entries
  | _ => []

/-- The directories among the entries of a directory that is at `p`. -/
def dirsIn (p : Path) : List (Text × Tree) → List Path
  | [] => []
  | (name, t) :: rest => dirsFrom (p.below name) t ++ dirsIn p rest

end

end Tree

/-- Why a search ends early. -/
inductive SearchError
  /-- A path is too long to be looked at. -/
  | tooLong (e : PathTooLong)
  /-- Directories lie in directories too many times. -/
  | tooDeep
  deriving DecidableEq, Repr

namespace Disk

/-- What is asked of a disk in a search. -/
def asked {α : Type} (answer : Except PathTooLong α) : Except SearchError α :=
  answer.mapError .tooLong

/-- The directories from `p` on, links not being followed below it. -/
def dirsBelow (d : Disk) (p : Path) : Except PathTooLong (List Path) :=
  (d.look? p).map fun t => t.elim [] (Tree.dirsFrom p)

/-- Whether an entry of the directory `p` is a directory or a link to one. -/
def isDirEntry (d : Disk) (p : Path) : Text × Tree → Except PathTooLong Bool
  | (name, .link _) => d.isDir (p.below name)
  | (_, .dir _) => .ok true
  | (_, .file _) => .ok false

/-- The path, if it names a file. -/
def fileAt (d : Disk) (p : Path) : Except SearchError (List Path) := do
  return if ← asked (d.isFile p) then [p] else []

/-- The paths in the lists that a function gives for the elements. -/
def gather {α : Type} (f : α → Except SearchError (List Path)) :
    List α → Except SearchError (List Path)
  | [] => .ok []
  | a :: as => do
    let found ← f a
    let rest ← gather f as
    return found ++ rest

/-- What was found in the directory `q` below `p`, unless there is no room to search its entries for
directories: each directory on the way to it takes up a call, and `room` of them are left. -/
def within (room : Nat) (p q : Path) (found : List Path) : Except SearchError (List Path) :=
  if room < q.parts.length - p.parts.length then .error .tooDeep else .ok found

/-- The files whose paths match the steps from the directory `p` on. They are looked for in the
order in which they are listed, and the first thing that cannot be done ends the search. -/
def matching (d : Disk) (room : Nat) : List PatternStep → Path → Except SearchError (List Path)
  | [], p => d.fileAt p
  | .stay :: _, p => d.fileAt p
  | .named name :: rest, p => do
    let q := p.below name
    if ← asked (if rest.isEmpty then d.isThere q else d.isDir q) then matching d room rest q
    else return []
  | .wild parts :: rest, p => do
    gather (fun e => do
        if ← asked (if rest.isEmpty then .ok true else d.isDirEntry p e) then
          if Wildcard.covers parts e.1 then matching d room rest (p.below e.1) else return []
        else return [])
      (← asked (d.entriesOf p))
  | .everywhere :: rest, p => do
    let found ← gather (fun q => do
        let _ ← asked (d.look? q)
        within room p q (← matching d room rest q))
      (← asked (d.dirsBelow p))
    return found.eraseDups

end Disk

end SymbolAtlas
