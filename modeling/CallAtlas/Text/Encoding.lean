import CallAtlas.Text.Quoted

/-!
# Bytes that are no text

Text is kept as UTF-8. A character takes one byte or a leading byte with up to three
continuation bytes, of which the first is restricted where the character could be
written with fewer bytes or is a surrogate. This module tells where bytes break that
form and how; `String.fromUTF8?` reads those that keep it.
-/

namespace CallAtlas.Text

/-- How bytes fail to be text. -/
inductive EncodingFault
  /-- A byte that no character starts with. -/
  | badStart (offset : Nat) (byte : UInt8)
  /-- A character whose first `length` bytes are well formed and whose next one is not. -/
  | badContinuation (offset : Nat) (byte : UInt8) (length : Nat)
  /-- A character of which the bytes end after `length` bytes. -/
  | cutOff (byte : UInt8) (length : Nat)
deriving Repr, DecidableEq

namespace EncodingFault

/-- The bytes that a fault is about: the first one, where they start and how many they are. The
bytes of a character that is cut off are what is left when all others are read, and count from
zero. -/
def extent : EncodingFault → UInt8 × Nat × Nat
  | badStart offset byte => (byte, offset, 1)
  | badContinuation offset byte length => (byte, offset, length)
  | cutOff byte length => (byte, 0, length)

/-- What is wrong. -/
def reason : EncodingFault → String
  | badStart .. => "invalid start byte"
  | badContinuation .. => "invalid continuation byte"
  | cutOff .. => "unexpected end of data"

/-- The wording of a fault. -/
def message (f : EncodingFault) : String :=
  let (byte, offset, length) := f.extent
  let place :=
    if length = 1 then
      "byte 0x" ++ String.ofList (hexPadded 2 byte.toNat) ++ " in position " ++ toString offset
    else
      "bytes in position " ++ toString offset ++ "-" ++ toString (offset + length - 1)
  "'utf-8' codec can't decode " ++ place ++ ": " ++ f.reason

end EncodingFault

/-- How many continuation bytes follow a leading byte. -/
def continuations (byte : Nat) : Option Nat :=
  if byte < 0x80 then some 0
  else if byte < 0xc2 then none
  else if byte < 0xe0 then some 1
  else if byte < 0xf0 then some 2
  else if byte < 0xf5 then some 3
  else none

/-- The smallest and the largest byte that may follow a leading byte. -/
def secondRange (byte : Nat) : Nat × Nat :=
  if byte = 0xe0 then (0xa0, 0xbf)
  else if byte = 0xed then (0x80, 0x9f)
  else if byte = 0xf0 then (0x90, 0xbf)
  else if byte = 0xf4 then (0x80, 0x8f)
  else (0x80, 0xbf)

/-- The first fault of some bytes. `pending` is the character under way: its leading byte, how
many of its bytes are read and how many are to come. -/
def faultFrom (offset : Nat) (pending : Option (UInt8 × Nat × Nat)) :
    List UInt8 → Option EncodingFault
  | [] => pending.map fun (byte, length, _) => .cutOff byte length
  | b :: bytes =>
    match pending with
    | none =>
      match continuations b.toNat with
      | none => some (.badStart offset b)
      | some 0 => faultFrom (offset + 1) none bytes
      | some (more + 1) => faultFrom (offset + 1) (some (b, 1, more + 1)) bytes
    | some (byte, length, more) =>
      let (least, greatest) := if length = 1 then secondRange byte.toNat else (0x80, 0xbf)
      if least ≤ b.toNat && b.toNat ≤ greatest then
        faultFrom (offset + 1) (if more ≤ 1 then none else some (byte, length + 1, more - 1)) bytes
      else some (.badContinuation (offset - length) byte length)

/-- The first fault of some bytes, none if they are text. -/
def encodingFault? (data : ByteArray) : Option EncodingFault :=
  faultFrom 0 none data.toList

end CallAtlas.Text
