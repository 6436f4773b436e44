import CallAtlas.Text.Quoted

/-!
# A short fingerprint of a text

The 160-bit secure hash of a text's UTF-8 bytes, of which a synthetic module
name shows the first digits.
-/

namespace CallAtlas.Digest

/-- The five words of the hash state. -/
structure State where
  a : UInt32
  b : UInt32
  c : UInt32
  d : UInt32
  e : UInt32

/-- The state before the first block. -/
def State.initial : State :=
  ⟨0x67452301, 0xefcdab89, 0x98badcfe, 0x10325476, 0xc3d2e1f0⟩

/-- A word turned left by `n` bits, `0 < n < 32`. -/
def rotate (x : UInt32) (n : UInt32) : UInt32 :=
  (x <<< n) ||| (x >>> (32 - n))

/-- The mixing function and the constant of one round. -/
def roundParts (round : Nat) (s : State) : UInt32 × UInt32 :=
  if round < 20 then ((s.b &&& s.c) ||| ((~~~ s.b) &&& s.d), 0x5a827999)
  else if round < 40 then (s.b ^^^ s.c ^^^ s.d, 0x6ed9eba1)
  else if round < 60 then ((s.b &&& s.c) ||| (s.b &&& s.d) ||| (s.c &&& s.d), 0x8f1bbcdc)
  else (s.b ^^^ s.c ^^^ s.d, 0xca62c1d6)

/-- One round with one word of the schedule. -/
def step (s : State) (round : Nat) (word : UInt32) : State :=
  let parts := roundParts round s
  ⟨rotate s.a 5 + parts.1 + s.e + parts.2 + word, s.a, rotate s.b 30, s.c, s.d⟩

/-- The sixteen words of a block, extended to eighty. -/
def schedule (block : Array UInt32) : Array UInt32 :=
  (List.range 64).foldl
    (fun w i => w.push
      (rotate (w.getD (i + 13) 0 ^^^ w.getD (i + 8) 0 ^^^ w.getD (i + 2) 0 ^^^ w.getD i 0) 1))
    block

/-- The state after one block. -/
def absorb (s : State) (block : Array UInt32) : State :=
  let words := schedule block
  let t := (List.range 80).foldl (fun t round => step t round (words.getD round 0)) s
  ⟨s.a + t.a, s.b + t.b, s.c + t.c, s.d + t.d, s.e + t.e⟩

/-- A message with its closing bit, zeros and length in bits, a whole number of blocks. -/
def padded (bytes : List UInt8) : List UInt8 :=
  let n := bytes.length
  let zeros := (119 - n % 64) % 64
  let bits := 8 * n
  bytes ++ [0x80] ++ List.replicate zeros 0 ++
    (List.range 8).map fun i => (bits / Nat.pow 256 (7 - i)).toUInt8

/-- The big-endian words of a list of bytes. -/
def wordsOf : List UInt8 → List UInt32
  | a :: b :: c :: d :: rest =>
    ((a.toUInt32 <<< 24) ||| (b.toUInt32 <<< 16) ||| (c.toUInt32 <<< 8) ||| d.toUInt32) ::
      wordsOf rest
  | _ => []

/-- The blocks of sixteen words of a list of words. -/
def blocksOf (words : List UInt32) : List (Array UInt32) :=
  (List.range (words.length / 16)).map fun i => ((words.drop (16 * i)).take 16).toArray

/-- The hash of a list of bytes. -/
def hash (bytes : List UInt8) : State :=
  (blocksOf (wordsOf (padded bytes))).foldl absorb State.initial

/-- The hash of a text as forty hexadecimal digits. -/
def hex (s : String) : List Char :=
  let h := hash s.toUTF8.toList
  [h.a, h.b, h.c, h.d, h.e].flatMap fun word => Text.hexPadded 8 word.toNat

end CallAtlas.Digest
