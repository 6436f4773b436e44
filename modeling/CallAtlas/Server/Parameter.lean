import CallAtlas.Numeral
import CallAtlas.Validation

/-!
# Parameters of a request

A request has named parameters, which may be repeated. A parameter with one value
takes the last one given, a list takes all of them. Integers may be padded, signed,
filled with zeros, grouped by underscores and followed by a fraction of zeros.
-/

namespace CallAtlas.Server

/-- The parameters of a request in the order given. -/
abbrev Parameters := List (String × String)

namespace Parameters

/-- All values of a parameter. -/
def values (ps : Parameters) (name : String) : List String :=
  (ps.filter (·.1 == name)).map Prod.snd

/-- The value of a parameter. -/
def value? (ps : Parameters) (name : String) : Option String :=
  (ps.values name).getLast?

end Parameters

/-! ## Integers -/

/-- What follows the zeros at the start of a numeral, with one zero kept where no other digit
follows. Underscores between the zeros go with them, and a minus sign may stand behind them.
`last` is the character before. -/
def afterZeros (last : Char) : List Char → Option (List Char)
  | [] => some [last]
  | c :: s =>
    if c == '0' || c == '_' then afterZeros c s
    else if c.isDigit || c == '-' then some (c :: s)
    else if c == '.' then some (last :: c :: s)
    else none

/-- A numeral without the zeros that fill it up at the start. It starts with a digit or a
minus. -/
def dropZeros : List Char → Option (List Char)
  | '0' :: s => afterZeros '0' s
  | c :: s => if c.isDigit || c == '-' then some (c :: s) else none
  | [] => none

/-- A numeral without a fraction of one zero or more. -/
def dropFraction (s : List Char) : List Char :=
  match s.dropWhile (· != '.') with
  | _ :: d :: fraction =>
    if (d :: fraction).all (· == '0') then s.takeWhile (· != '.') else s
  | _ => s

/-- A numeral without the underscores that group its digits, unless one is out of place. -/
def dropGroups (s : List Char) : List Char :=
  if s.head? == some '_' || s.getLast? == some '_' || (s.zip s.tail).contains ('_', '_') then s
  else s.filter (· != '_')

/-- A numeral without its plus sign. -/
def dropPlus : List Char → List Char
  | '+' :: '-' :: s => '+' :: '-' :: s
  | '+' :: s => s
  | s => s

/-- A numeral brought to its plain form: padding, plus sign, filling zeros, fraction and groups
are gone, and a minus sign stays in front. -/
def plainForm? (s : List Char) : Option (List Char) :=
  let bare (digits : List Char) := (dropZeros digits).map (dropGroups ∘ dropFraction)
  match dropPlus (Numeral.unpad s) with
  | '-' :: digits => (bare digits).map ('-' :: ·)
  | digits => bare digits

/-- Digits and perhaps a minus sign, without further zeros at the start. -/
def plainInt? (s : List Char) : Option Int :=
  let (negative, digits) := match s with
    | '-' :: digits => (true, digits)
    | digits => (false, digits)
  if digits.isEmpty || !digits.all Char.isDigit then none
  else if digits.head? == some '0' && digits.length > 1 then none
  else
    let n := Int.ofNat (Numeral.value (digits.map fun c => c.toNat - '0'.toNat))
    some (if negative then -n else n)

/-- Whether a text starts with more digits than are read, a minus sign counted with them. -/
def startsOversized (s : List Char) : Bool :=
  let (sign, digits) := match s with
    | '-' :: digits => (1, digits)
    | digits => (0, digits)
  digits.head? != some '0' && sign + (digits.takeWhile Char.isDigit).length > maxDigits

/-- An integer in a parameter. One in plain form is told apart when it is too long, even before
what follows it. -/
def readInt (place : List Place) (s : List Char) : Validated Int :=
  if startsOversized s then .issue .oversizedInt place
  else match (plainInt? s).or ((plainForm? s).filter (!startsOversized ·) |>.bind plainInt?) with
    | some n => .ok n
    | none => .issue .unreadableInt place

/-! ## Checks -/

/-- The place of a parameter. -/
def parameterPlace (name : String) : List Place :=
  [.field "query", .field name]

/-- A parameter that must be there. -/
def required (ps : Parameters) (name : String) : Validated String :=
  match ps.value? name with
  | some v => .ok v
  | none => .issue .missing (parameterPlace name)

/-- An integer that may be left out. -/
def optionalInt (ps : Parameters) (name : String) : Validated (Option Int) :=
  match ps.value? name with
  | some v => (readInt (parameterPlace name) v.toList).map some
  | none => .ok none

/-- A truth value, false if left out. -/
def truth (ps : Parameters) (name : String) : Validated Bool :=
  match ps.value? name with
  | some v => Validated.truth (parameterPlace name) v
  | none => .ok false

end CallAtlas.Server
