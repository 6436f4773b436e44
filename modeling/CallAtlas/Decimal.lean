import CallAtlas.Numeral

/-!
# Decimal fractions as binary doubles

A decimal text is read as the double nearest to its exact value, a tie going to
the even significand. The rounding works on exact integers: the value is a
quotient of two naturals, scaled by a power of two until its integral part is a
significand.
-/

namespace CallAtlas

/-- A binary double, by its 64 bits. -/
structure Double where
  bits : UInt64
deriving Repr, DecidableEq

namespace Double

/-- The value of the highest bit, which is the sign. -/
def topBit : Nat := 0x8000000000000000

/-- The value of the lowest bit of the exponent, which is one more than the largest
fraction. -/
def exponentUnit : Nat := 0x10000000000000

/-- The exponent with all bits set, that of infinities and of what is no number. -/
def lastExponent : Nat := 0x7ff

/-- The sign bit of a double. -/
def signBit (negative : Bool) : Nat :=
  if negative then topBit else 0

/-- Infinity of either sign. -/
def infinity (negative : Bool) : Double :=
  ⟨(signBit negative + lastExponent * exponentUnit).toUInt64⟩

/-- The double that is no number. -/
def nan : Double :=
  ⟨(lastExponent * exponentUnit + exponentUnit / 2).toUInt64⟩

/-- The number one. -/
def one : Double :=
  ⟨(0x3ff * exponentUnit).toUInt64⟩

/-- The bits of a double without its sign. -/
def magnitude (d : Double) : Nat :=
  d.bits.toNat % topBit

/-- Whether a double is zero, of either sign. -/
def isZero (d : Double) : Bool :=
  d.magnitude == 0

/-- Whether a double is no number: all exponent bits and some other bit are set. -/
def isNaN (d : Double) : Bool :=
  d.magnitude > lastExponent * exponentUnit

/-- The integer that a double is, if it is one. -/
def toInt? (d : Double) : Option Int :=
  let exponent := d.magnitude / exponentUnit
  let fraction := d.magnitude % exponentUnit
  let significand := if exponent == 0 then fraction else fraction + exponentUnit
  let shift := max exponent 1
  let signed (n : Nat) : Int := if d.bits.toNat ≥ topBit then -Int.ofNat n else Int.ofNat n
  if exponent == lastExponent then none
  else if shift ≥ 1075 then some (signed (significand * Nat.pow 2 (shift - 1075)))
  else if significand % Nat.pow 2 (1075 - shift) == 0 then
    some (signed (significand / Nat.pow 2 (1075 - shift)))
  else none

/-- `num / den` to the nearest natural, a tie going to the even one. -/
def roundQuotient (num den : Nat) : Nat :=
  let q := num / den
  let twice := 2 * (num % den)
  if twice < den then q
  else if twice > den then q + 1
  else if q % 2 == 0 then q else q + 1

/-- `num / den · 2 ^ scale` as a quotient of naturals. -/
def scaled (num den : Nat) (scale : Int) : Nat × Nat :=
  if scale ≥ 0 then (num * Nat.pow 2 scale.toNat, den) else (num, den * Nat.pow 2 (-scale).toNat)

/-- The scale at which the integral part of `num / den` has 53 bits, or the largest
scale that a double has if that is smaller. -/
def scaleFor (num den : Nat) : Int :=
  let guess : Int := 52 - (Int.ofNat num.log2 - Int.ofNat den.log2)
  let q := scaled num den guess
  let exact := if q.1 / q.2 < exponentUnit then guess + 1 else guess
  min exact 1074

/-- The double nearest to a positive quotient. -/
def ofQuotient (negative : Bool) (num den : Nat) : Double :=
  let scale := scaleFor num den
  let q := scaled num den scale
  let significand := roundQuotient q.1 q.2
  let magnitude :=
    if significand < exponentUnit then significand
    else (1075 - scale).toNat * exponentUnit + (significand - exponentUnit)
  if magnitude ≥ lastExponent * exponentUnit then infinity negative
  else ⟨(signBit negative + magnitude).toUInt64⟩

/-- The double nearest to `digits · 10 ^ exponent`. Magnitudes far outside the range of
doubles are decided by the number of digits alone. -/
def ofDecimal (negative : Bool) (digits : Nat) (exponent : Int) : Double :=
  if digits == 0 then ⟨(signBit negative).toUInt64⟩
  else
    let magnitude := Int.ofNat (Nat.toDigits 10 digits).length + exponent
    if magnitude > 310 then infinity negative
    else if magnitude < -330 then ⟨(signBit negative).toUInt64⟩
    else if exponent ≥ 0 then ofQuotient negative (digits * Nat.pow 10 exponent.toNat) 1
    else ofQuotient negative digits (Nat.pow 10 (-exponent).toNat)

/-- The sum of two doubles, rounded as their hardware does. -/
def add (a b : Double) : Double :=
  ⟨(Float.ofBits a.bits + Float.ofBits b.bits).toBits⟩

/-- The product of two doubles, rounded as their hardware does. -/
def mul (a b : Double) : Double :=
  ⟨(Float.ofBits a.bits * Float.ofBits b.bits).toBits⟩

/-- The double nearest to a natural number. -/
def ofNat (n : Nat) : Double :=
  if n = 0 then ⟨0⟩ else ofQuotient false n 1

/-- Whether a double is infinite. -/
def isInfinite (d : Double) : Bool :=
  d.magnitude == lastExponent * exponentUnit

/-- The double of the other sign. -/
def neg (d : Double) : Double :=
  ⟨(if d.bits.toNat ≥ topBit then d.bits.toNat - topBit else d.bits.toNat + topBit).toUInt64⟩

/-- Whether two doubles are the same number. -/
def same (a b : Double) : Bool :=
  !a.isNaN && ((a.isZero && b.isZero) || a == b)

/-- Removes the underscores of a text, each of which must stand between two digits. -/
def dropUnderscores (afterDigit : Bool) : List Char → Option (List Char)
  | [] => some []
  | '_' :: c :: s =>
    if afterDigit && Text.isDecimal c then
      (dropUnderscores true s).map (c :: ·)
    else none
  | c :: s =>
    if c == '_' then none
    else (dropUnderscores (Text.isDecimal c) s).map (c :: ·)

/-- The digits at the start of a text and what follows them. -/
def digitsPart (s : List Char) : List Nat × List Char :=
  ((s.takeWhile Text.isDecimal).filterMap Text.digitValue?, s.dropWhile Text.isDecimal)

/-- The exponent part of a decimal fraction, which must reach the end of the text. -/
def exponentPart : List Char → Option Int
  | [] => some 0
  | c :: s =>
    if c == 'e' || c == 'E' then
      let signed := Numeral.sign s
      match digitsPart signed.2 with
      | ([], _) => none
      | (digits, []) =>
        some (if signed.1 then - Int.ofNat (Numeral.value digits)
          else Int.ofNat (Numeral.value digits))
      | _ => none
    else none

/-- An unsigned decimal fraction: digits with at most one point among or around them, and
an exponent. -/
def readUnsigned (negative : Bool) (s : List Char) : Option Double :=
  let whole := digitsPart s
  let fraction := match whole.2 with
    | '.' :: rest => digitsPart rest
    | rest => ([], rest)
  match whole.1 ++ fraction.1 with
  | [] => none
  | digits =>
    (exponentPart fraction.2).map fun exponent =>
      ofDecimal negative (Numeral.value digits) (exponent - Int.ofNat fraction.1.length)

/-- Reads a decimal fraction, an infinity or the sign of no number, in any case. -/
def read? (s : List Char) : Option Double :=
  match dropUnderscores false (Numeral.unpad s) with
  | none => none
  | some plain =>
    let signed := Numeral.sign plain
    let word := signed.2.map Char.toLower
    if word == "inf".toList || word == "infinity".toList then some (infinity signed.1)
    else if word == "nan".toList then some nan
    else readUnsigned signed.1 signed.2

end Double
end CallAtlas
