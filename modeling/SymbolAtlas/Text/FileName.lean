import SymbolAtlas.Text.Utf8

/-!
# Names of files

What a file is called is a list of bytes, and a path is a text. Bytes that are UTF-8 are shown as
their characters, and any other byte as a surrogate of its own, so that it can be told from the
text again. Such a text may also be written by hand, with surrogates for bytes that would be shown
as a character: it is another text for the same file.

* `Text.fileBytes` — the bytes that a text stands for, if `Text.hasFileBytes`;
* `Text.ofFileBytes` — the text that bytes are shown as;
* `Text.listed` — the text that a directory shows for a name.
-/

namespace SymbolAtlas

namespace CodePoint

/-- Whether a surrogate stands for a byte, which is one that is no ASCII character. -/
def isByte (offset : Fin 2048) : Bool :=
  0x480 ≤ offset.val && offset.val < 0x500

/-- The surrogate that stands for a byte. -/
def ofByte (b : UInt8) : CodePoint :=
  have hlt : 0x400 + b.toNat < 0x400 + UInt8.size := Nat.add_lt_add_left b.toNat_lt_size 0x400
  .surrogate ⟨0x400 + b.toNat, Nat.lt_of_lt_of_le hlt (Nat.le_of_ble_eq_true rfl)⟩

/-- The bytes that a code point stands for in the name of a file. -/
def fileBytes : CodePoint → List UInt8
  | .char c => Text.Utf8.encodeChar c
  | .surrogate k => if isByte k then [(k.val - 0x400).toUInt8] else []

/-- Whether a code point may occur in the name of a file. -/
def hasFileBytes : CodePoint → Bool
  | .char _ => true
  | .surrogate k => isByte k

end CodePoint

namespace Text

/-- The bytes that a text stands for as the name of a file. -/
def fileBytes (t : Text) : List UInt8 :=
  t.flatMap CodePoint.fileBytes

/-- Whether a text stands for bytes: all its surrogates do. -/
def hasFileBytes (t : Text) : Bool :=
  t.all CodePoint.hasFileBytes

/-- A sequence of UTF-8 under way, and its bytes so far. -/
structure Held where
  sequence : Utf8.Partial
  bytes : List UInt8

/-- A byte between characters: what it is shown as, and the sequence that it opens. -/
def showFirst (b : UInt8) : Text × Option Held :=
  if b.toNat < 0x80 then ([.char (Char.ofNat b.toNat)], none)
  else match Utf8.lead? b.toNat with
    | some p => ([], some ⟨p, [b]⟩)
    | none => ([.ofByte b], none)

/-- A byte inside a sequence: what is shown of the sequence, and the sequence under way after it.
The bytes of a sequence that is broken off are shown one by one. -/
def showNext (h : Held) (b : UInt8) : Text × Option Held :=
  if h.sequence.low ≤ b.toNat && b.toNat ≤ h.sequence.high then
    let bits := h.sequence.bits * 64 + b.toNat % 64
    if h.sequence.lacking ≤ 1 then ([.char (Char.ofNat bits)], none)
    else ([], some ⟨{ bits := bits, lacking := h.sequence.lacking - 1 }, h.bytes ++ [b]⟩)
  else
    let (shown, next) := showFirst b
    (h.bytes.map .ofByte ++ shown, next)

/-- The text that bytes are shown as, a sequence being under way. -/
def showFrom : Option Held → List UInt8 → Text
  | none, [] => []
  | some h, [] => h.bytes.map .ofByte
  | none, b :: bs =>
    let (shown, next) := showFirst b
    shown ++ showFrom next bs
  | some h, b :: bs =>
    let (shown, next) := showNext h b
    shown ++ showFrom next bs

/-- The text that the name of a file is shown as. -/
def ofFileBytes (bs : List UInt8) : Text :=
  showFrom none bs

/-- The text that a directory shows for a name. -/
def listed (t : Text) : Text :=
  ofFileBytes t.fileBytes

end Text

end SymbolAtlas
