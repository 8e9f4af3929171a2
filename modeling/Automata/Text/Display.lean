/-!
# Text from bytes

Bytes that are the encoding of a text stand for this text. Other bytes are shown as text all the same:
as the characters that they encode in part, with one sign for each piece that encodes none. Such a
piece goes as far as it could still have become a character.
-/

namespace Automata.Text

/-- The sign for bytes that are no text. -/
def replacementSign : Char := '\ufffd'

/-- A range of bytes, both ends included. -/
structure ByteRange where
  low : Nat
  high : Nat

def ByteRange.contains (r : ByteRange) (byte : Nat) : Bool :=
  decide (r.low ≤ byte) && decide (byte ≤ r.high)

/-- The bytes that go on with a character. -/
def furtherBytes : ByteRange := ⟨0x80, 0xbf⟩

/-- A character that has begun: its bits so far, and where its next byte and those after it must
lie. -/
structure Begun where
  bits : Nat
  next : ByteRange
  later : List ByteRange

/-- The character of more than one byte that starts with `byte`. The ranges leave out what is encoded
longer than needed, the surrogates, and what is beyond the last character. -/
def Begun.ofFirst? (byte : Nat) : Option Begun :=
  if byte < 0xc2 then none
  else if byte < 0xe0 then some ⟨byte - 0xc0, furtherBytes, []⟩
  else if byte = 0xe0 then some ⟨0, ⟨0xa0, 0xbf⟩, [furtherBytes]⟩
  else if byte = 0xed then some ⟨0xd, ⟨0x80, 0x9f⟩, [furtherBytes]⟩
  else if byte < 0xf0 then some ⟨byte - 0xe0, furtherBytes, [furtherBytes]⟩
  else if byte = 0xf0 then some ⟨0, ⟨0x90, 0xbf⟩, [furtherBytes, furtherBytes]⟩
  else if byte < 0xf4 then some ⟨byte - 0xf0, furtherBytes, [furtherBytes, furtherBytes]⟩
  else if byte = 0xf4 then some ⟨4, ⟨0x80, 0x8f⟩, [furtherBytes, furtherBytes]⟩
  else none

/-- What bytes have been shown as so far, the last character first. -/
structure Decoder where
  shown : List Char
  begun : Option Begun

namespace Decoder

/-- Takes a byte that does not go on with a character. -/
def start (shown : List Char) (byte : Nat) : Decoder :=
  if byte < 0x80 then ⟨Char.ofNat byte :: shown, none⟩
  else
    match Begun.ofFirst? byte with
    | some b => ⟨shown, some b⟩
    | none => ⟨replacementSign :: shown, none⟩

/-- Takes the next byte. -/
def step (d : Decoder) (byte : UInt8) : Decoder :=
  match d.begun with
  | none => start d.shown byte.toNat
  | some b =>
    if b.next.contains byte.toNat then
      let bits := b.bits * 0x40 + (byte.toNat - furtherBytes.low)
      match b.later with
      | [] => ⟨Char.ofNat bits :: d.shown, none⟩
      | next :: later => ⟨d.shown, some ⟨bits, next, later⟩⟩
    else start (replacementSign :: d.shown) byte.toNat

/-- All that is shown when the bytes end. -/
def finish (d : Decoder) : String :=
  String.ofList (if d.begun.isSome then replacementSign :: d.shown else d.shown).reverse

end Decoder

/-- The text that bytes are shown as. -/
def ofBytes (bytes : List UInt8) : String :=
  match String.fromUTF8? ⟨bytes.toArray⟩ with
  | some text => text
  | none => (bytes.foldl Decoder.step ⟨[], none⟩).finish

end Automata.Text
