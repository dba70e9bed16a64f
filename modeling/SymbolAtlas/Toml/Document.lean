import SymbolAtlas.Toml.Scan

/-!
# Settings documents

A document is read statement by statement into one table. A key may be defined once. A table may
be opened once by a header of its own, and by dotted keys only in the section where it first
appeared; what is written as a list or a table in braces cannot be extended any more. A header in
double brackets opens a new last element of a list of tables.

* `Toml.value` — one value;
* `Toml.read` — a whole document.
-/

namespace SymbolAtlas.Toml

open Scan

/-! ## Tables under construction -/

/-- A key with its parts, outermost first. -/
abbrev Key := List String

/-- What is remembered about a key. -/
inductive Mark
  /-- Neither the value nor anything in it can be extended. -/
  | frozen (key : Key)
  /-- The table cannot be opened by a header. -/
  | opened (key : Key)
  deriving DecidableEq, Repr

/-- The key that a mark is about. -/
def Mark.key : Mark → Key
  | .frozen k => k
  | .opened k => k

/-- Whether the key leads to or into something frozen. -/
def isFrozen (marks : List Mark) (key : Key) : Bool :=
  marks.any fun
    | .frozen k => k.isPrefixOf key
    | .opened _ => false

/-- Whether the key is a table that cannot be opened again. -/
def isOpened (marks : List Mark) (key : Key) : Bool :=
  marks.any fun
    | .frozen _ => false
    | .opened k => k == key

/-- The marks without those on the key and on what is in it. -/
def forget (marks : List Mark) (key : Key) : List Mark :=
  marks.filter fun m => !key.isPrefixOf m.key

/-- Changes the table that a key leads to. Tables on the way are made if they are missing; a list
of tables stands for its last element where `throughLists` allows it. -/
def changeAt (throughLists : Bool) (change : Value.Table → Option Value.Table) :
    Key → Value.Table → Option Value.Table
  | [], fields => change fields
  | k :: ks, fields =>
    match Fields.get? fields k with
    | none => (changeAt throughLists change ks []).map fun t => Fields.put fields k (.table t)
    | some (.table inner) =>
      (changeAt throughLists change ks inner).map fun t => Fields.put fields k (.table t)
    | some (.list items) =>
      match throughLists, items.getLast? with
      | true, some (.table inner) =>
        (changeAt throughLists change ks inner).map fun t =>
          Fields.put fields k (.list (items.dropLast ++ [.table t]))
      | _, _ => none
    | some _ => none

/-- Puts a value under a name that is not taken. -/
def addNew (name : String) (v : Value) (fields : Value.Table) : Option Value.Table :=
  if Fields.has fields name then none else some (Fields.put fields name v)

/-- Adds an empty table to the list under a name, which is made if it is missing. -/
def addElement (name : String) (fields : Value.Table) : Option Value.Table :=
  match Fields.get? fields name with
  | none => some (Fields.put fields name (.list [.table []]))
  | some (.list items) => some (Fields.put fields name (.list (items ++ [.table []])))
  | some _ => none

/-- Whether a value is a list or a table, which the document cannot extend. -/
def isContainer : Value → Bool
  | .list _ => true
  | .table _ => true
  | _ => false

/-- The parts of a key before its last one. -/
def parentOf (key : Key) : Key :=
  key.dropLast

/-- The last part of a key. -/
def stemOf (key : Key) : String :=
  key.getLast?.getD ""

/-- The key under a condition that must hold for it. -/
def orConflict {α : Type} (key : Key) : Option α → Except ReadError α
  | some a => .ok a
  | none => .error (.conflict key)

/-! ## Values -/

/-- A value without parts. -/
def scalar (cs : List Char) : Step Value :=
  match cs with
  | '"' :: _ => (basicText cs).map fun (s, rest) => (.text (String.ofList s), rest)
  | '\'' :: _ => (literalText cs).map fun (s, rest) => (.text (String.ofList s), rest)
  | 't' :: 'r' :: 'u' :: 'e' :: rest => .ok (.bool true, rest)
  | 'f' :: 'a' :: 'l' :: 's' :: 'e' :: rest => .ok (.bool false, rest)
  | _ =>
    match moment? cs with
    | some (m, rest) => if hasDay m then .ok (.moment m, rest) else malformed cs
    | none =>
      match number? cs with
      | some r => r
      | none =>
        match named? cs with
        | some (x, rest) => .ok (.float x, rest)
        | none => malformed cs

/-- A table in braces under construction. -/
structure Inline where
  fields : Value.Table
  marks : List Mark

/-- The table in braces with one more value. -/
def Inline.add (t : Inline) (key : Key) (v : Value) : Except ReadError Inline :=
  if isFrozen t.marks key then .error (.conflict key)
  else
    match changeAt false (addNew (stemOf key) v) (parentOf key) t.fields with
    | none => .error (.conflict key)
    | some fields =>
      .ok { fields := fields, marks := if isContainer v then .frozen key :: t.marks else t.marks }

mutual

/-- One value at the front of the characters. The fuel bounds the parts looked at. The depth is the
number of calls that are left: a list takes up two of them, a table in braces three. -/
def value (fuel depth : Nat) (cs : List Char) : Step Value :=
  match fuel with
  | 0 => malformed cs
  | fuel + 1 =>
    match cs with
    | '[' :: rest =>
      match depth with
      | 0 | 1 => .error .tooDeep
      | depth + 2 =>
        match skipGaps rest with
        | .error e => .error e
        | .ok (']' :: rest) => .ok (.list [], rest)
        | .ok rest => items fuel depth [] rest
    | '\x7b' :: rest =>
      match depth with
      | 0 | 1 | 2 => .error .tooDeep
      | depth + 3 =>
        match skipBlanks rest with
        | '\x7d' :: rest => .ok (.table [], rest)
        | rest => bracedFields fuel depth ⟨[], []⟩ rest
    | _ => scalar cs

/-- The items of a list up to its bracket; `done` holds those read, last first. -/
def items (fuel depth : Nat) (done : List Value) (cs : List Char) : Step Value :=
  match fuel with
  | 0 => malformed cs
  | fuel + 1 =>
    match value fuel depth cs with
    | .error e => .error e
    | .ok (v, rest) =>
      match skipGaps rest with
      | .error e => .error e
      | .ok (']' :: rest) => .ok (.list (v :: done).reverse, rest)
      | .ok (',' :: rest) =>
        match skipGaps rest with
        | .error e => .error e
        | .ok (']' :: rest) => .ok (.list (v :: done).reverse, rest)
        | .ok rest => items fuel depth (v :: done) rest
      | .ok rest => malformed rest

/-- The fields of a table up to its brace. -/
def bracedFields (fuel depth : Nat) (t : Inline) (cs : List Char) : Step Value :=
  match fuel with
  | 0 => malformed cs
  | fuel + 1 =>
    match key fuel cs with
    | .error e => .error e
    | .ok (k, '=' :: rest) =>
      match value fuel depth (skipBlanks rest) with
      | .error e => .error e
      | .ok (v, rest) =>
        match t.add k v with
        | .error e => .error e
        | .ok t =>
          match skipBlanks rest with
          | '\x7d' :: rest => .ok (.table t.fields, rest)
          | ',' :: rest => bracedFields fuel depth t (skipBlanks rest)
          | rest => malformed rest
    | .ok (_, rest) => malformed rest

end

/-! ## Statements -/

/-- A document under construction: its table, the marks in force, the marks that the next header
puts in force, and the header of the section. -/
structure Draft where
  table : Value.Table := []
  marks : List Mark := []
  pending : List Mark := []
  header : Key := []

/-- The draft at the beginning of a new section. -/
def Draft.settle (d : Draft) : Draft :=
  { d with marks := d.pending ++ d.marks, pending := [] }

/-- The draft with the section of a table opened. -/
def Draft.openTable (d : Draft) (key : Key) : Except ReadError Draft :=
  if isOpened d.marks key || isFrozen d.marks key then .error (.conflict key)
  else do
    let table ← orConflict key (changeAt true some key d.table)
    return { d with table := table, marks := .opened key :: d.marks, header := key }

/-- The draft with the section of a new element of a list of tables opened. -/
def Draft.openElement (d : Draft) (key : Key) : Except ReadError Draft :=
  if isFrozen d.marks key then .error (.conflict key)
  else do
    let table ← orConflict key (changeAt true (addElement (stemOf key)) (parentOf key) d.table)
    return { d with table := table, marks := .opened key :: forget d.marks key, header := key }

/-- The tables that a dotted key leads through, below the header of the section. -/
def dottedTables (header key : Key) : List Key :=
  (List.range (key.length - 1)).map fun i => header ++ key.take (i + 1)

/-- The draft with one more value in its section. -/
def Draft.define (d : Draft) (key : Key) (v : Value) : Except ReadError Draft :=
  let full := d.header ++ key
  let through := dottedTables d.header key
  if through.any (isOpened d.marks) || isFrozen d.marks (parentOf full) then
    .error (.conflict full)
  else do
    let table ← orConflict full (changeAt true (addNew (stemOf key) v) (parentOf full) d.table)
    return { d with
      table := table
      marks := if isContainer v then .frozen full :: d.marks else d.marks
      pending := through.map .opened ++ d.pending }

/-- One statement at the front of the characters, which neither are empty nor begin with a
blank, a line end or a comment. The fuel bounds the parts looked at. -/
def statement (depth fuel : Nat) (d : Draft) (cs : List Char) : Step Draft :=
  match cs with
  | '[' :: '[' :: rest =>
    match key fuel (skipBlanks rest) with
    | .ok (k, ']' :: ']' :: rest) => (d.settle.openElement k).map fun d => (d, rest)
    | .ok (_, rest) => malformed rest
    | .error e => .error e
  | '[' :: rest =>
    match key fuel (skipBlanks rest) with
    | .ok (k, ']' :: rest) => (d.settle.openTable k).map fun d => (d, rest)
    | .ok (_, rest) => malformed rest
    | .error e => .error e
  | _ =>
    match key fuel cs with
    | .ok (k, '=' :: rest) =>
      match value fuel depth (skipBlanks rest) with
      | .ok (v, rest) => (d.define k v).map fun d => (d, rest)
      | .error e => .error e
    | .ok (_, rest) => malformed rest
    | .error e => .error e

/-- The characters after the rest of a line, which holds nothing more than a comment. -/
def endOfLine (cs : List Char) : Except ReadError (List Char) :=
  match skipComment (skipBlanks cs) with
  | .error e => .error e
  | .ok [] => .ok []
  | .ok ('\n' :: rest) => .ok rest
  | .ok rest => .error (.malformed rest.length)

/-- The lines of a document taken into a draft. The fuel bounds the lines, and in each line the
parts looked at. -/
def lines (depth : Nat) : Nat → Draft → List Char → Except ReadError Draft
  | 0, d, _ => .ok d
  | fuel + 1, d, cs =>
    match skipBlanks cs with
    | [] => .ok d
    | '\n' :: rest => lines depth fuel d rest
    | '#' :: rest =>
      match endOfLine ('#' :: rest) with
      | .error e => .error e
      | .ok rest => lines depth fuel d rest
    | cs =>
      match statement depth (fuel + 1) d cs with
      | .error e => .error e
      | .ok (d, rest) =>
        match endOfLine rest with
        | .error e => .error e
        | .ok rest => lines depth fuel d rest

/-- The table that a document writes. `depth` calls are left for the values in it, of the calls that
may be under way at once. -/
def read (depth : Nat) (s : String) : Except ReadError Value.Table :=
  (lines depth (s.length + 1) {} s.toList).map Draft.table

/-- The words for a document that is not read. For a document that breaks the grammar they are words
of their own: they tell how much was left, and stand for what a parser says, which names the place
in other words. -/
def ReadError.message : ReadError → String
  | .malformed left => s!"malformed {left} characters before the end"
  | .conflict key => s!"cannot define {Text.quoted (Text.join dot key)} here"
  | .longInteger => "Exceeds the limit (4300 digits) for integer string conversion"
  | .tooDeep => "nested too deeply"
where
  /-- What stands between the parts of a key. -/
  dot : String := "."

end SymbolAtlas.Toml
