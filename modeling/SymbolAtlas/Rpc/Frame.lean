import SymbolAtlas.Failure
import SymbolAtlas.Json.Reader
import SymbolAtlas.Json.Writer
import SymbolAtlas.Text.Classes

/-!
# Framed messages

A message is sent as a block of headers, a blank line, and a body of as many bytes as the header
`Content-Length` says. What a server prints comes on the same stream: a line in front of the
headers that is no header is console output.

Reading is a sequence of steps over the bytes that are there. Each step takes one line or one
body, or finds that it has to wait for more; so it makes no difference in what portions the bytes
arrive. A reader knows what it may ask for at once and how deeply a body may be nested.

* `Frame.encode?` — the bytes of a message;
* `Frame.step` — one step of reading;
* `Frame.readMessage` — the next message of bytes that are all there;
* `Frame.readAll` — all of them.
-/

namespace SymbolAtlas.Frame

open Text

/-! ## Headers -/

/-- The headers that may stand in front of a body. -/
inductive Header
  | contentLength | contentType
  deriving DecidableEq, Repr

/-- The header with a name, which may be written in any case. -/
def Header.ofName? (name : List Char) : Option Header :=
  let name := lowerAscii (String.ofList name)
  if name == "content-length" then some .contentLength
  else if name == "content-type" then some .contentType
  else none

/-- The header that a line is, with its value. -/
def header? (line : String) : Option (Header × String) :=
  match cutAt ':' line.toList with
  | none => none
  | some (name, value) =>
    (Header.ofName? (trimChars name)).map fun h => (h, String.ofList (trimChars value))

/-- The length that a value states: a positive integer. -/
def length? (value : String) : Option Nat :=
  match Numeral.readInt? value with
  | some n => if 0 < n then some n.toNat else none
  | none => none

/-! ## Steps -/

/-- Where the reader is: among headers, with the length if it is known already, or before a
body. -/
inductive Stage
  | headers (length : Option Nat)
  | body (length : Nat)
  deriving DecidableEq, Repr

/-- What the bytes of a body are asked of. -/
inductive Origin
  /-- Something that has as many bytes as it has. -/
  | ideal
  /-- Memory, in which bytes have addresses. -/
  | memory
  /-- A pipe, whose bytes are gathered in a buffer as long as the body. -/
  | pipe
  deriving DecidableEq, Repr

/-- How messages are read. -/
structure Reader where
  origin : Origin
  /-- The calls that are left for what is in a body, of those that may be under way at once. -/
  depth : Nat
  deriving DecidableEq, Repr

/-- Why a length cannot be asked for. -/
inductive LengthFault
  /-- There are not as many addresses. -/
  | noAddress
  /-- A buffer has not as many addresses for its bytes. -/
  | noBuffer
  /-- There is not as much memory. -/
  | noMemory
  deriving DecidableEq, Repr

/-- The class of a fault. -/
def LengthFault.kind : LengthFault → String
  | .noAddress | .noBuffer => "OverflowError"
  | .noMemory => "MemoryError"

/-- The words for a fault. -/
def LengthFault.text : LengthFault → String
  | .noAddress => "cannot fit 'int' into an index-sized integer"
  | .noBuffer => "byte string is too large"
  | .noMemory => ""

/-- The greatest address. -/
def maxAddress : Nat := 9223372036854775807

/-- What a buffer needs besides its bytes. -/
def bufferHead : Nat := 33

/-- The greatest length of a buffer that memory is found for. -/
def maxBuffer : Nat := 549755813888

/-- Why a length cannot be asked for, if it cannot. -/
def Origin.refuses (o : Origin) (length : Nat) : Option LengthFault :=
  match o with
  | .ideal => none
  | .memory => if maxAddress < length then some .noAddress else none
  | .pipe =>
    if maxAddress < length then some .noAddress
    else if maxAddress - bufferHead < length then some .noBuffer
    else if maxBuffer < length then some .noMemory
    else none

/-- Why a body or a header cannot be read. -/
inductive BodyFault
  | frame (e : FrameError)
  /-- The length cannot be asked for. -/
  | length (e : LengthFault)
  /-- The body holds an integer with too many digits. -/
  | longInteger
  deriving DecidableEq, Repr

/-- The fault that ends the reading. -/
def BodyFault.fault : BodyFault → Fault
  | .frame e => .failure (.frame e)
  | .length e => .stray (.raised e.kind e.text)
  | .longInteger => .stray .longInteger

/-- What a line among the headers comes to. -/
inductive LineEffect
  /-- More headers follow. -/
  | headers (length : Option Nat)
  /-- The line is console output. -/
  | console (text : String)
  /-- The body follows. -/
  | body (length : Nat)
  /-- The line must not stand here. -/
  | bad (e : FrameError)
  deriving DecidableEq, Repr

/-- What a line comes to when the length is as given. -/
def lineEffect (length : Option Nat) (line : String) : LineEffect :=
  if line.isEmpty then
    match length with
    | some n => .body n
    | none => .headers none
  else
    match header? line, length with
    | some (.contentLength, value), _ =>
      match length? value with
      | some n => .headers (some n)
      | none => .bad (.badLength value)
    | some (.contentType, _), _ => .headers length
    | none, some _ => .bad (.unexpectedHeader line)
    | none, none => .console line

/-- The byte that ends a line. -/
def lineFeed : UInt8 := 10

/-- The first line of the bytes, without its line feed, and the bytes after it. At the end of the
stream what is left is a line too, unless it is nothing. -/
def cutLine? (bytes : List UInt8) (atEnd : Bool) : Option (List UInt8 × List UInt8) :=
  match bytes.span (· != lineFeed) with
  | (line, _ :: rest) => some (line, rest)
  | (line, []) => if atEnd && !line.isEmpty then some (line, []) else none

/-- Whether a character ends a line. -/
def isLineEnd (c : Char) : Bool :=
  c = '\r' || c = '\n'

/-- The text of a line, its carriage returns at the end dropped. -/
def lineText (line : List UInt8) : String :=
  String.ofList (dropLastWhile isLineEnd (Utf8.decodeLossy line))

/-- The message in a body. Why a body is no JSON text is told in words of its own, which say how
much of it was left: they stand for the words of a decoder, and are part of why a connection is
closed. -/
def readBody (depth : Nat) (body : List UInt8) : Except BodyFault Json.Object :=
  match Utf8.decode body with
  | none => .error (.frame (.badBody "the bytes are not UTF-8"))
  | some cs =>
    match Json.readChars depth cs with
    | .ok (.obj fields) => .ok fields
    | .ok _ => .error (.frame .notObject)
    | .error .tooDeep => .error (.frame .tooDeep)
    | .error .longInteger => .error .longInteger
    | .error (.malformed left) => .error (.frame (.badBody s!"malformed {left} from the end"))

/-- What one step of reading finds. -/
inductive Found
  /-- What is there is no whole line or body yet. -/
  | waiting
  /-- The stream is over. -/
  | ended
  /-- Something was read that gives nothing by itself. -/
  | onward (stage : Stage) (rest : List UInt8)
  /-- A line of console output. -/
  | console (text : String) (rest : List UInt8)
  /-- A message. -/
  | message (m : Json.Object) (rest : List UInt8)
  /-- Something that cannot be read. -/
  | bad (fault : BodyFault) (rest : List UInt8)

/-- One step of reading; `atEnd` says that no bytes follow those that are there. -/
def step (r : Reader) (stage : Stage) (bytes : List UInt8) (atEnd : Bool) : Found :=
  match stage with
  | .headers length =>
    match cutLine? bytes atEnd with
    | none => if atEnd then .ended else .waiting
    | some (line, rest) =>
      match lineEffect length (lineText line) with
      | .headers length => .onward (.headers length) rest
      | .console text => .console text rest
      | .body n => .onward (.body n) rest
      | .bad e => .bad (.frame e) rest
  | .body n =>
    match r.origin.refuses n with
    | some e => .bad (.length e) bytes
    | none =>
      if bytes.length < n then if atEnd then .ended else .waiting
      else match readBody r.depth (bytes.take n) with
        | .ok m => .message m (bytes.drop n)
        | .error e => .bad e (bytes.drop n)

/-! ## Whole streams -/

/-- How a reading ended. -/
inductive Ending
  | message (m : Json.Object)
  /-- The bytes ended first. -/
  | ended
  | bad (fault : BodyFault)

/-- What was read: the console output on the way, how it ended, and the bytes left. -/
structure Reading where
  output : List String
  ending : Ending
  rest : List UInt8

/-- Reads on from a stage up to a message. Each step takes at least one byte, so the number of
bytes and one more is fuel enough. -/
def readFrom (reader : Reader) : Nat → Stage → List UInt8 → Reading
  | 0, _, bytes => ⟨[], .ended, bytes⟩
  | fuel + 1, stage, bytes =>
    match step reader stage bytes true with
    | .waiting | .ended => ⟨[], .ended, []⟩
    | .onward stage rest => readFrom reader fuel stage rest
    | .console text rest =>
      let r := readFrom reader fuel (.headers none) rest
      { r with output := text :: r.output }
    | .message m rest => ⟨[], .message m, rest⟩
    | .bad e rest => ⟨[], .bad e, rest⟩

/-- The next message of bytes that are all there. -/
def readMessage (reader : Reader) (bytes : List UInt8) : Reading :=
  readFrom reader (bytes.length + 1) (.headers none) bytes

/-- Everything that was read from a stream. -/
structure Transcript where
  messages : List Json.Object
  output : List String
  /-- The fault that ended the reading, if the bytes did not. -/
  fault : Option BodyFault
  rest : List UInt8

/-- Reads messages as long as there are any. -/
def readMany (reader : Reader) : Nat → List UInt8 → Transcript
  | 0, bytes => ⟨[], [], none, bytes⟩
  | fuel + 1, bytes =>
    let r := readMessage reader bytes
    match r.ending with
    | .ended => ⟨[], r.output, none, r.rest⟩
    | .bad e => ⟨[], r.output, some e, r.rest⟩
    | .message m =>
      let t := readMany reader fuel r.rest
      { t with messages := m :: t.messages, output := r.output ++ t.output }

/-- Everything in a stream, up to its end or the first thing that cannot be read. -/
def readAll (reader : Reader) (bytes : List UInt8) : Transcript :=
  readMany reader (bytes.length + 1) bytes

/-! ## Writing -/

/-- The bytes of a body behind its headers. -/
def wrap (body : List UInt8) : List UInt8 :=
  Utf8.encode (s!"Content-Length: {body.length}\r\n\r\n").toList ++ body

/-- The bytes of a message; there are none if a surrogate stands alone in it. -/
def encode? (message : Json) : Option (List UInt8) :=
  (Utf8.encode? message.render).map wrap

end SymbolAtlas.Frame
