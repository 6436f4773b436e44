import CallAtlas.Decimal
import CallAtlas.Text.Case
import CallAtlas.Yaml.Form

/-!
# Values

What a configuration text says: nothing, truth values, integers, decimal fractions,
days and moments, texts, bytes, lists, sets and records. The tag of a scalar tells
what it is, and its text must fit the tag.
-/

namespace CallAtlas.Yaml

/-- A value. -/
inductive Value
  | null
  | bool (value : Bool)
  | int (value : Int)
  | real (value : Double)
  /-- A day, by its number. -/
  | day (number : Nat)
  /-- A day with a time. -/
  | moment (value : Calendar.Moment)
  | text (value : String)
  | bytes (data : List UInt8)
  | list (items : List Value)
  /-- Two values that belong together. -/
  | pair (first second : Value)
  /-- Values without an order, none of them twice. -/
  | set (items : List Value)
  | record (entries : List (Value × Value))
deriving Repr, Inhabited

namespace Value

/-- The name of a kind of values. -/
def kind : Value → String
  | null => "NoneType"
  | bool _ => "bool"
  | int _ => "int"
  | real _ => "float"
  | day _ => "datetime.date"
  | moment _ => "datetime.datetime"
  | text _ => "str"
  | bytes _ => "bytes"
  | list _ => "list"
  | pair .. => "tuple"
  | set _ => "set"
  | record _ => "dict"

/-- Whether a value counts as no value: nothing, false, zero, or empty. -/
def isVoid : Value → Bool
  | null => true
  | bool value => !value
  | int value => value == 0
  | real value => value.isZero
  | day _ => false
  | moment _ => false
  | text value => value.isEmpty
  | bytes data => data.isEmpty
  | list items => items.isEmpty
  | pair .. => false
  | set items => items.isEmpty
  | record entries => entries.isEmpty

/-- Whether a value is a given text. -/
def isText (v : Value) (s : String) : Bool :=
  match v with
  | text value => value == s
  | _ => false

/-- The integer that a truth value or a number is, if it is one. -/
def integer? : Value → Option Int
  | bool value => some (if value then 1 else 0)
  | int value => some value
  | real value => value.toInt?
  | _ => none

/-- Whether two scalars are the same key. Numbers are compared by what they are, whatever their
kinds. -/
def sameKey (a b : Value) : Bool :=
  match a, b with
  | null, null => true
  | day m, day n => m == n
  | moment m, moment n => m == n
  | text s, text t => s == t
  | bytes m, bytes n => m == n
  | real m, real n => m.same n
  | a, b =>
    match a.integer?, b.integer? with
    | some m, some n => m == n
    | _, _ => false

/-- The last value under a text in the entries of a record. -/
def field? (entries : List (Value × Value)) (name : String) : Option Value :=
  (entries.reverse.find? (·.1.isText name)).map Prod.snd

end Value

/-! ## Numbers -/

/-- A numeral that must be one. -/
def numeral (n : Except NumeralError Int) : Except Fault Int :=
  n.mapError .numeral

/-- A number whose parts stand in base sixty. -/
def sixtyFold (parts : List Int) : Int :=
  parts.foldl (fun n part => 60 * n + part) 0

/-- The integer that a text with a tag for one is. Its underscores and its sign are dropped
first, and the rest says its base. -/
def readInteger (s : List Char) : Except Fault Int := do
  let plain := s.filter (· != '_')
  if plain.isEmpty then throw .emptyNumber
  let (negative, body) := Numeral.sign plain
  let n ← match body with
    | [] => throw .emptyNumber
    | '0' :: 'b' :: rest => numeral (Numeral.readIntIn 2 rest)
    | '0' :: 'x' :: rest => numeral (Numeral.readIntIn 16 rest)
    | '0' :: _ => if body == ['0'] then .ok 0 else numeral (Numeral.readIntIn 8 body)
    | _ =>
      if body.contains ':' then
        ((body.splitOn ':').mapM fun part => numeral (Numeral.readInt part)).map sixtyFold
      else numeral (Numeral.readInt body)
  return if negative then -n else n

/-- The sum of the parts of a fraction in base sixty, the last one first. -/
def sixtySum : (scale : Nat) → (sum : Double) → List Double → Except Fault Double
  | _, sum, [] => .ok sum
  | scale, sum, part :: parts => do
    let factor := Double.ofNat scale
    if factor.isInfinite then throw .oversizedReal
    sixtySum (60 * scale) (sum.add (part.mul factor)) parts

/-- A decimal fraction that must be one. -/
def fraction (s : List Char) : Except Fault Double :=
  match Double.read? s with
  | some d => .ok d
  | none => .error (.notReal s)

/-- The decimal fraction that a text with a tag for one is. -/
def readReal (s : List Char) : Except Fault Double := do
  let plain := Text.lower (s.filter (· != '_'))
  if plain.isEmpty then throw .emptyNumber
  let (negative, body) := Numeral.sign plain
  let d ← if body == ".inf".toList then .ok (Double.infinity false)
    else if body == ".nan".toList then .ok Double.nan
    else if body.contains ':' then do
      sixtySum 1 ⟨0⟩ (← (body.splitOn ':').mapM fraction).reverse
    else fraction body
  return if negative then d.neg else d

/-! ## Days and moments -/

/-- The number that digits write. -/
def digitsNat (s : List Char) : Nat :=
  Numeral.value (s.filterMap Text.digitValue?)

/-- The microseconds that the digits after a second write; those after the sixth do not
count. -/
def micros (digits : List Char) : Nat :=
  digitsNat ((digits ++ List.replicate 6 '0').take 6)

/-- The distance of a zone in minutes. -/
def MomentText.distance? (m : MomentText) : Option Int :=
  match m.zone with
  | some (sign, hours, minutes) =>
    let n := Int.ofNat (digitsNat hours * 60 + digitsNat minutes)
    some (if sign == '-' then -n else n)
  | none => if m.isCommon then some 0 else none

/-- The day or the moment with some parts. -/
def MomentText.read (m : MomentText) : Except CalendarError Value := do
  let year := digitsNat m.year
  let month := digitsNat m.month
  let day := digitsNat m.day
  match m.clock with
  | none => return .day (← Calendar.dayNumber year month day)
  | some (hour, minute, second) =>
    let time := ⟨digitsNat hour, digitsNat minute, digitsNat second, micros m.fraction⟩
    return .moment (← Calendar.moment year month day time m.distance?)

/-- The day or the moment that a text with a tag for one is. -/
def readMoment (s : List Char) : Except Fault Value :=
  match momentText? (dropLineFeed s) with
  | some m => m.read.mapError .calendar
  | none => .error .notMoment

/-! ## Bytes -/

/-- The value of a character that stands for six bits. -/
def sextet? (c : Char) : Option Nat :=
  if 'A' ≤ c && c ≤ 'Z' then some (c.toNat - 'A'.toNat)
  else if 'a' ≤ c && c ≤ 'z' then some (c.toNat - 'a'.toNat + 26)
  else if '0' ≤ c && c ≤ '9' then some (c.toNat - '0'.toNat + 52)
  else if c == '+' then some 62
  else if c == '/' then some 63
  else none

/-- The bytes of the whole octets in a list of sextets. -/
def octets : List Nat → List UInt8
  | a :: b :: c :: d :: rest =>
    (a * 4 + b / 16).toUInt8 :: (b % 16 * 16 + c / 4).toUInt8 :: (c % 4 * 64 + d).toUInt8 ::
      octets rest
  | [a, b, c] => [(a * 4 + b / 16).toUInt8, (b % 16 * 16 + c / 4).toUInt8]
  | [a, b] => [(a * 4 + b / 16).toUInt8]
  | _ => []

/-- The sextets of a text. Four make three bytes; fewer need as many pads as are lacking, which
end the text. Other characters do not count. -/
def sextetsFrom (count pads : Nat) : List Char → Option (List Nat)
  | [] => if count % 4 == 0 then some [] else none
  | c :: s =>
    if c == '=' then
      if count % 4 < 2 then sextetsFrom count pads s
      else if count % 4 + pads + 1 ≥ 4 then some []
      else sextetsFrom count (pads + 1) s
    else match sextet? c with
      | some n => (sextetsFrom (count + 1) 0 s).map (n :: ·)
      | none => sextetsFrom count pads s

/-- The bytes that a text with a tag for them stands for. -/
def readBytes (s : List Char) : Except Fault (List UInt8) :=
  if s.any (·.toNat ≥ 0x80) then .error .malformed
  else match sextetsFrom 0 0 s with
    | some sextets => .ok (octets sextets)
    | none => .error .malformed

/-! ## All scalars -/

/-- The words for truth values in lower case. -/
def truthWords : List (String × Bool) :=
  [("yes", true), ("no", false), ("true", true), ("false", false), ("on", true), ("off", false)]

/-- The truth value that a text with a tag for one is. -/
def readTruth (s : List Char) : Except Fault Bool :=
  let word := Text.lower s
  match truthWords.lookup (String.ofList word) with
  | some b => .ok b
  | none => .error (.notTruth word)

/-- The value of a scalar with a tag. The tags of collections are for none. -/
def Value.ofScalar (tag : Tag) (s : String) : Except Fault Value :=
  match tag with
  | .null => .ok .null
  | .bool => (readTruth s.toList).map .bool
  | .int => (readInteger s.toList).map .int
  | .real => (readReal s.toList).map .real
  | .bytes => (readBytes s.toList).map .bytes
  | .moment => readMoment s.toList
  | .text => .ok (.text s)
  | .list | .record | .set | .pairs | .merge | .value | .other => .error .malformed

end CallAtlas.Yaml
