import CallAtlas.Text.Encoding
import CallAtlas.Text.Lines

/-!
# Reading a file piece by piece

A file is read as text in requests for a number of characters each. Its bytes come in
chunks, which are decoded one after the other: what is left of a chunk when a
character is cut off goes before the next one, and so does a carriage return at its
end. A fault tells its place in the chunk, and the request that meets it gives
nothing; what earlier requests gave has been read.
-/

namespace CallAtlas.Text

/-- How many characters a request asks for. -/
def requestSize : Nat := 4096

/-- How many bytes a chunk has at least, unless the file ends. -/
def leastChunk : Nat := 8192

/-- What a file gives: the text that can be read, and the fault that stops it. -/
structure Delivery where
  text : List Char
  fault : Option EncodingFault := none
deriving Repr, DecidableEq

/-- What is known of a file while it is read. -/
structure Intake where
  /-- The bytes that are still to come. -/
  rest : List UInt8
  /-- The bytes of a character that is cut off. -/
  begun : List UInt8 := []
  /-- Whether a carriage return waits for what follows it. -/
  awaitsLineFeed : Bool := false
  /-- The text decoded so far and how long it is. -/
  text : List Char := []
  size : Nat := 0
  /-- How many bytes the last chunk had, and how many characters it gave. -/
  lastChunk : Nat × Nat := (0, 0)

namespace Intake

/-- How many characters are lacking to complete a request. -/
def lacking (i : Intake) : Nat :=
  requestSize - i.size % requestSize

/-- How many bytes the next chunk has: as many as the characters that are lacking would take if
they were as long as those of the last chunk. -/
def chunkSize (i : Intake) : Nat :=
  let ratio := if i.lastChunk.2 = 0 then 1 else i.lastChunk.1.toFloat / i.lastChunk.2.toFloat
  max leastChunk ((if ratio < 1 then 1 else ratio) * i.lacking.toFloat).toUInt64.toNat

/-- The text that requests completed. Nothing can be read before two of them are. -/
def completed (i : Intake) : List Char :=
  let requests := i.size / requestSize
  if requests < 2 then [] else i.text.take (requests * requestSize)

/-- Whether bytes end in the first two bytes of a surrogate. -/
def endsInSurrogate (bytes : List UInt8) : Bool :=
  match bytes.reverse with
  | second :: first :: _ => first == 0xed && 0xa0 ≤ second && second ≤ 0xbf
  | _ => false

/-- How many bytes at the end wait for those that follow: a character that is cut off, or the
first two bytes of a surrogate, which no character has. -/
def waiting (bytes : List UInt8) : Option EncodingFault → Nat
  | some (.cutOff _ length) => length
  | some (.badContinuation offset _ _) =>
    if offset + 2 = bytes.length && endsInSurrogate bytes then 2 else 0
  | _ => 0

/-- Takes in the characters of a chunk of some bytes. A carriage return at the end waits. -/
def take (i : Intake) (bytes : Nat) (decoded : List Char) : Intake :=
  let whole := if i.awaitsLineFeed then '\r' :: decoded else decoded
  let waits := whole.getLast? == some '\r'
  let fresh := unifyNewlines (if waits then whole.dropLast else whole)
  { i with
    awaitsLineFeed := waits
    text := i.text ++ fresh
    size := i.size + fresh.length
    lastChunk := (bytes, fresh.length) }

/-- What a file gives, chunk by chunk. -/
def run : (bound : Nat) → Intake → Delivery
  | 0, i => ⟨i.text, none⟩
  | bound + 1, i =>
    match i.rest, i.begun with
    | [], [] => ⟨if i.awaitsLineFeed then i.text ++ ['\n'] else i.text, none⟩
    | [], begun => ⟨i.completed, faultFrom 0 none begun⟩
    | _, _ =>
      let chunk := i.rest.take i.chunkSize
      let bytes := i.begun ++ chunk
      let fault := faultFrom 0 none bytes
      let held := waiting bytes fault
      if fault.isSome && held = 0 then ⟨i.completed, fault⟩
      else
        let whole := bytes.length - held
        let decoded := ((String.fromUTF8? ⟨(bytes.take whole).toArray⟩).map String.toList).getD []
        let next := { i with rest := i.rest.drop i.chunkSize, begun := bytes.drop whole }
        run bound (next.take chunk.length decoded)

end Intake

/-- What a file of some bytes gives. -/
def deliver (data : ByteArray) : Delivery :=
  Intake.run (data.size + 2) { rest := data.toList }

end CallAtlas.Text
