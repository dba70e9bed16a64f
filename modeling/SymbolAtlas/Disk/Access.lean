import SymbolAtlas.Disk.Path
import SymbolAtlas.Text.Quoted

/-!
# Reading a disk

A tree is a snapshot of what is stored below the root directory: files with their bytes, directories
with named entries, and links with the text they point to. Names are kept as a directory shows them,
and an entry is found by any text that stands for the bytes of its name.

A disk is a tree and the directory that relative paths start from. Finding what a path names
follows links, and `..` leads to the directory that holds the one reached so far, which need not
be the one written before it. A chain of more than `Disk.maxLinks` links is a loop, and there is a
most number of bytes for a name and for a path.

* `Tree` — what a name can stand for;
* `Tree.entry?` — what is stored under a name;
* `Tree.put` — a tree with something stored at a place, directories being made on the way;
* `Disk.find` — what a path names, or why it names nothing;
* `Disk.look?` — the same where only a path that is too long is an error;
* `Disk.isFile`, `Disk.isDir`, `Disk.isThere` — whether it names a file, a directory, anything;
* `Disk.readText` — the text of a file: strict UTF-8, line ends read as line feeds;
* `Disk.entriesOf`, `Disk.listNames` — what is in a directory;
* `Disk.linkAt` — the target of a link.
-/

namespace SymbolAtlas

/-- What is stored under a name. -/
inductive Tree
  | file (bytes : List UInt8)
  | dir (entries : List (Text × Tree))
  | link (target : Text)
  deriving Inhabited

namespace Tree

/-- A directory with nothing in it. -/
def empty : Tree := .dir []

/-- The entries of a directory, none for other things. -/
def entries : Tree → Fields Text Tree
  | .dir es => es
  | _ => []

/-- What is stored under a name in a directory. -/
def entry? (t : Tree) (name : Text) : Option Tree :=
  Fields.get? t.entries name.listed

/-- The tree with `new` at the end of the components. Whatever on the way is no directory is
replaced by one. -/
def put (t : Tree) (new : Tree) : List Text → Tree
  | [] => new
  | name :: rest =>
    .dir (Fields.put t.entries name.listed (((t.entry? name).getD empty).put new rest))

/-- The tree with a directory at the end of the components, and with what that directory holds
already. -/
def makeDir (t : Tree) : List Text → Tree
  | [] => .dir t.entries
  | name :: rest =>
    .dir (Fields.put t.entries name.listed (((t.entry? name).getD empty).makeDir rest))

end Tree

/-- Why a path cannot be used. -/
inductive AccessError
  /-- Nothing has the name. -/
  | missing
  /-- Something on the way is no directory. -/
  | notDirectory
  /-- It is a directory, and a file is needed. -/
  | isDirectory
  /-- The links on the way lead back to themselves. -/
  | loop
  /-- The path, or a name in it, has too many bytes. -/
  | nameTooLong
  /-- The path holds the character NUL, which no name may hold. -/
  | nul
  /-- The path has a surrogate that stands for no byte. -/
  | notEncodable
  deriving DecidableEq, Repr

/-- What a message says about a text without bytes. -/
def notEncodableMessage : String :=
  "'utf-8' codec can't encode a surrogate that stands alone"

/-- The number of the error and its words, as the system states them, with the path. -/
def AccessError.message (e : AccessError) (path : Text) : String :=
  match e with
  | .missing => s!"[Errno 2] No such file or directory: {Text.quoted path}"
  | .notDirectory => s!"[Errno 20] Not a directory: {Text.quoted path}"
  | .isDirectory => s!"[Errno 21] Is a directory: {Text.quoted path}"
  | .nameTooLong => s!"[Errno 36] File name too long: {Text.quoted path}"
  | .loop => s!"[Errno 40] Too many levels of symbolic links: {Text.quoted path}"
  | .nul => "embedded null byte"
  | .notEncodable => notEncodableMessage

/-- A path that is too long to be looked at. -/
structure PathTooLong where
  path : Path
  deriving DecidableEq, Repr

/-- Why a text file is not read. -/
inductive TextError
  /-- The bytes cannot be had. -/
  | access (e : AccessError)
  /-- The bytes are not UTF-8. -/
  | notUtf8
  deriving DecidableEq, Repr

/-- What a message says about a file that is not UTF-8. -/
def notUtf8Message : String :=
  "'utf-8' codec can't decode the file"

/-- A tree and the directory that relative paths start from. -/
structure Disk where
  tree : Tree
  workingDir : List Text

namespace Disk

/-- The most links that are followed on the way to one place. -/
def maxLinks : Nat := 40

/-- The most bytes of a name. -/
def maxNameBytes : Nat := 255

/-- The most bytes of a path. -/
def maxPathBytes : Nat := 4095

/-- The components of a path, counted from the root directory. -/
def absoluteParts (d : Disk) (p : Path) : List Text :=
  if p.isAbsolute then p.parts else d.workingDir ++ p.parts

/-- Whether a text can only name a directory, because it ends in a slash or in `.`. -/
def namesOnlyDir (t : Text) : Bool :=
  match (Text.pieces Path.slash t).getLast? with
  | some last => last.isEmpty || last == Path.hereName
  | none => false

/-- The steps that the target of a link leads through. The last one is `.` where the target can
only be a directory. -/
def stepsOf (target : Text) : List Text :=
  Path.components target ++ if namesOnlyDir target then [Path.hereName] else []

/-- Walks the components from a place, which is the list of the directories that lead to it,
innermost first. A link is handed on together with what is left to walk. -/
def walkWith (onLink : List Tree → Text → List Text → Except AccessError Tree) :
    List Tree → List Text → Except AccessError Tree
  | [], _ => .error .missing
  | here :: _, [] => .ok here
  | here :: up, name :: rest =>
    match here with
    | .dir entries =>
      if name = Path.hereName then walkWith onLink (here :: up) rest
      else if name = Path.upName then walkWith onLink (if up.isEmpty then [here] else up) rest
      else if maxNameBytes < name.fileBytes.length then .error .nameTooLong
      else match Fields.get? entries name.listed with
        | none => .error .missing
        | some (.link target) => onLink (here :: up) target rest
        | some child => walkWith onLink (child :: here :: up) rest
    | _ => .error .notDirectory

/-- Walks the components and follows at most `links` links. -/
def walk (root : Tree) : Nat → List Tree → List Text → Except AccessError Tree
  | 0 => walkWith fun _ _ _ => .error .loop
  | links + 1 => walkWith fun place target rest =>
    walk root links (if (Path.parse target).isAbsolute then [root] else place)
      (stepsOf target ++ rest)

/-- Whether a path holds the character NUL. -/
def hasNul (p : Path) : Bool :=
  p.parts.any fun name => name.contains (.char '\x00')

/-- What the path names. -/
def find (d : Disk) (p : Path) : Except AccessError Tree :=
  if !p.text.hasFileBytes then .error .notEncodable
  else if hasNul p then .error .nul
  else if maxPathBytes < p.bytes.length then .error .nameTooLong
  else walk d.tree maxLinks [d.tree] (d.absoluteParts p)

/-- What the path names, if it names anything. -/
def look? (d : Disk) (p : Path) : Except PathTooLong (Option Tree) :=
  match d.find p with
  | .ok t => .ok (some t)
  | .error .nameTooLong => .error ⟨p⟩
  | .error _ => .ok none

/-- Whether the path names a file. -/
def isFile (d : Disk) (p : Path) : Except PathTooLong Bool :=
  (d.look? p).map fun
    | some (.file _) => true
    | _ => false

/-- Whether the path names a directory. -/
def isDir (d : Disk) (p : Path) : Except PathTooLong Bool :=
  (d.look? p).map fun
    | some (.dir _) => true
    | _ => false

/-- Whether the path names anything. -/
def isThere (d : Disk) (p : Path) : Except PathTooLong Bool :=
  (d.look? p).map Option.isSome

/-- The paths among the given ones that name files. -/
def filesAmong (d : Disk) : List Path → Except PathTooLong (List Path)
  | [] => .ok []
  | p :: ps => do
    let keep ← d.isFile p
    let rest ← filesAmong d ps
    return if keep then p :: rest else rest

/-- The bytes of the file that the path names. -/
def readBytes (d : Disk) (p : Path) : Except AccessError (List UInt8) :=
  match d.find p with
  | .ok (.file bytes) => .ok bytes
  | .ok _ => .error .isDirectory
  | .error e => .error e

/-- The text of the file that the path names. -/
def readText (d : Disk) (p : Path) : Except TextError String :=
  match d.readBytes p with
  | .error e => .error (.access e)
  | .ok bytes =>
    match Text.Utf8.decode bytes with
    | none => .error .notUtf8
    | some cs => .ok (String.ofList (Text.universalNewlines cs))

/-- What is in the directory that the path names. -/
def entriesOf (d : Disk) (p : Path) : Except PathTooLong (Fields Text Tree) :=
  (d.look? p).map fun t => t.elim [] Tree.entries

/-- The names in the directory that the path names, in ascending order. -/
def listNames (d : Disk) (p : Path) : Except PathTooLong (List Text) :=
  (d.entriesOf p).map fun entries => (Fields.names entries).mergeSort Text.le

/-- The target of the link at the place that a name has below a path, the path itself being
followed; nothing if there is no link. -/
def linkAt (d : Disk) (p : Path) (name : Text) : Option Text :=
  if maxPathBytes < (p.below name).bytes.length || maxNameBytes < name.fileBytes.length then none
  else match d.find p with
    | .ok t =>
      match t.entry? name with
      | some (.link target) => some target
      | _ => none
    | .error _ => none

end Disk

end SymbolAtlas
