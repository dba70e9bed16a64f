import SymbolAtlas.Fields
import SymbolAtlas.Text.Classes
import SymbolAtlas.Text.FileName
import SymbolAtlas.Text.Pieces

/-!
# Paths

Paths as they are written, before any disk is asked: a root and the components after it. Repeated
slashes and components `.` are gone; `..` stays, because what it means depends on links. Exactly
two leading slashes are a root of their own, three or more are the same as one. A path that begins
with `~` starts from a home directory: that of the caller, or that of the user named behind the
tilde.

Components are texts, in which surrogates stand for the bytes of names that are not UTF-8.

* `Path.parse` — the path that a text writes;
* `Path.text` — the path as text, `.` when it is empty;
* `Path.append` — one path below another, which an absolute path ignores;
* `Path.uri` — the `file:` address of an absolute path;
* `Homes`, `Path.expandHome` — home directories, and the path with its tilde replaced.
-/

namespace SymbolAtlas

/-- What a path starts from. -/
inductive PathRoot
  /-- Wherever the path is used. -/
  | here
  /-- The root directory. -/
  | top
  /-- Two slashes. -/
  | doubled
  deriving DecidableEq, Repr

/-- A path: its root and its components. -/
structure Path where
  root : PathRoot
  parts : List Text
  deriving DecidableEq, Repr

/-- The slashes that a root is written with. -/
def PathRoot.text : PathRoot → Text
  | .here => []
  | .top => [.char '/']
  | .doubled => [.char '/', .char '/']

namespace Path

open Text

/-- The name for where one is. -/
def hereName : Text := [.char '.']

/-- The name for the directory above. -/
def upName : Text := [.char '.', .char '.']

/-- What stands between components. -/
def slash : CodePoint := .char '/'

/-- The root that a text begins with. -/
def rootOf : Text → PathRoot
  | .char '/' :: .char '/' :: .char '/' :: _ => .top
  | .char '/' :: .char '/' :: _ => .doubled
  | .char '/' :: _ => .top
  | _ => .here

/-- The components of a text: what stands between slashes, without empty parts and `.`. -/
def components (t : Text) : List Text :=
  (pieces slash t).filter fun p => !p.isEmpty && p != hereName

/-- The path that a text writes. -/
def parse (t : Text) : Path :=
  ⟨rootOf t, components t⟩

/-- The path as text. -/
def text (p : Path) : Text :=
  match p.root, p.parts with
  | .here, [] => hereName
  | root, parts => root.text ++ joinPieces [slash] parts

/-- Whether the path names the same place wherever it is used. -/
def isAbsolute (p : Path) : Bool :=
  p.root != .here

/-- The path `q` taken below `p`; an absolute `q` is the answer by itself. -/
def append (p q : Path) : Path :=
  if q.isAbsolute then q else ⟨p.root, p.parts ++ q.parts⟩

/-- The path that a text writes, taken below `p`. -/
def child (p : Path) (t : Text) : Path :=
  p.append (parse t)

/-- The path of a name below `p`. -/
def below (p : Path) (name : Text) : Path :=
  { p with parts := p.parts ++ [name] }

/-- Whether the path is `p` or written as something below it. -/
def isBelow (q p : Path) : Bool :=
  q.root == p.root && p.parts.isPrefixOf q.parts

/-- The last component, empty for a root. -/
def name (p : Path) : Text :=
  p.parts.getLast?.getD []

/-- The bytes of the path as a system takes them. -/
def bytes (p : Path) : List UInt8 :=
  p.text.fileBytes

/-! ## Addresses -/

/-- The bytes that stand for themselves in an address. -/
def isPlainByte (b : UInt8) : Bool :=
  let n := b.toNat
  (0x41 ≤ n && n ≤ 0x5A) || (0x61 ≤ n && n ≤ 0x7A) || (0x30 ≤ n && n ≤ 0x39) ||
    n == 0x5F || n == 0x2E || n == 0x2D || n == 0x7E || n == 0x2F

/-- An upper-case hexadecimal digit. -/
def upperHex (n : Nat) : Char :=
  (hexDigit n).toUpper

/-- One byte in an address. -/
def percent (b : UInt8) : List Char :=
  if isPlainByte b then [Char.ofNat b.toNat]
  else ['%', upperHex (b.toNat / 16), upperHex (b.toNat % 16)]

/-- The address of an absolute path. -/
def uri (p : Path) : String :=
  "file://" ++ String.ofList (p.bytes.flatMap percent)

end Path

/-! ## Home directories -/

/-- The home directory of the caller, and those of other users by name. -/
structure Homes where
  own : Text
  others : Fields Text Text := []

/-- Why a home directory cannot be found. -/
inductive HomeError
  /-- The user is not known. -/
  | unknownUser
  /-- The name of the user holds the character NUL, which no name may hold. -/
  | nul
  /-- The name of the user has a surrogate that stands for no byte. -/
  | notEncodable
  deriving DecidableEq, Repr

/-- The home directory of a user, the caller having an empty name. -/
def Homes.find (homes : Homes) (user : Text) : Except HomeError Text :=
  if user.isEmpty then .ok homes.own
  else if !user.hasFileBytes then .error .notEncodable
  else if user.contains (.char '\x00') then .error .nul
  else match Fields.get? homes.others user with
    | some home => .ok home
    | none => .error .unknownUser

/-- The path with a tilde at its front replaced. -/
def Path.expandHome (homes : Homes) (p : Path) : Except HomeError Path :=
  match p.root, p.parts with
  | .here, (.char '~' :: user) :: rest =>
    (homes.find user).map fun home =>
      let base := Path.parse home
      { base with parts := base.parts ++ rest }
  | _, _ => .ok p

end SymbolAtlas
