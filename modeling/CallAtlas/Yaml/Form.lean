import CallAtlas.Yaml.Tag

/-!
# Forms of plain scalars

A plain scalar tells its kind by its form: words for truth values and for nothing,
integers in four bases and in base sixty, decimal fractions, days and moments, and
the two keys with a meaning. Any other scalar is a text. One line feed after the form
does not count.
-/

namespace CallAtlas.Yaml

/-- The words for truth values. -/
def truthForms : List String :=
  ["yes", "Yes", "YES", "no", "No", "NO", "true", "True", "TRUE", "false", "False", "FALSE",
    "on", "On", "ON", "off", "Off", "OFF"]

/-- The words for nothing. -/
def nullForms : List String := ["~", "null", "Null", "NULL"]

/-! ## Integers -/

/-- Whether a text has characters, all of which pass a test. -/
def isRunOf (test : Char → Bool) (s : List Char) : Bool :=
  !s.isEmpty && s.all test

/-- A digit or an underscore. -/
def isDigitOrLine (c : Char) : Bool :=
  c.isDigit || c == '_'

/-- A part of a number in base sixty, after its first: a digit, or two below sixty. -/
def isSixtieth (s : List Char) : Bool :=
  match s with
  | [a] => a.isDigit
  | [a, b] => '0' ≤ a && a ≤ '5' && b.isDigit
  | _ => false

/-- Whether a text is a number in base sixty of two parts at least, the first of which starts
with a given digit. -/
def isSexagesimal (first : Char → Bool) (s : List Char) : Bool :=
  match s.splitOn ':' with
  | (c :: digits) :: part :: parts =>
    first c && digits.all isDigitOrLine && (part :: parts).all isSixtieth
  | _ => false

/-- Whether a text is a natural number: binary, octal or hexadecimal after its mark, decimal or
in base sixty. -/
def isNatural (s : List Char) : Bool :=
  let isLead := fun c : Char => c.isDigit && c != '0'
  match s with
  | '0' :: 'b' :: rest => isRunOf (fun c => c == '0' || c == '1' || c == '_') rest
  | '0' :: 'x' :: rest => isRunOf (fun c => (Numeral.hexValue? c).isSome || c == '_') rest
  | '0' :: rest => rest.all fun c => ('0' ≤ c && c ≤ '7') || c == '_'
  | c :: rest => (isLead c && rest.all isDigitOrLine) || isSexagesimal isLead s
  | [] => false

/-- Whether a text is an integer. -/
def isInteger (s : List Char) : Bool :=
  isNatural (Numeral.sign s).2

/-! ## Decimal fractions -/

/-- Whether a text is an exponent with its sign, or empty. -/
def isExponent (s : List Char) : Bool :=
  match s with
  | [] => true
  | e :: sign :: digits =>
    (e == 'e' || e == 'E') && (sign == '-' || sign == '+') && isRunOf Char.isDigit digits
  | _ => false

/-- Whether a text is a decimal fraction. There is a point, and a digit before it or after;
without one before, there is no sign. -/
def isFraction (s : List Char) : Bool :=
  let (_, body) := Numeral.sign s
  let whole := body.takeWhile isDigitOrLine
  match body.dropWhile isDigitOrLine with
  | '.' :: after =>
    isExponent (after.dropWhile isDigitOrLine) &&
      (if whole.isEmpty then body.length == s.length && after.head?.any Char.isDigit
      else whole.head?.any Char.isDigit)
  | _ => false

/-- Whether a text is a decimal fraction in base sixty. -/
def isSexagesimalFraction (s : List Char) : Bool :=
  let (_, body) := Numeral.sign s
  let whole := body.takeWhile (· != '.')
  match body.dropWhile (· != '.') with
  | _ :: after => isSexagesimal Char.isDigit whole && after.all isDigitOrLine
  | [] => false

/-- Whether a text is a decimal fraction, an infinity or no number. -/
def isReal (s : List Char) : Bool :=
  [".inf", ".Inf", ".INF"].contains (String.ofList (Numeral.sign s).2) ||
    [".nan", ".NaN", ".NAN"].contains (String.ofList s) || isFraction s ||
    isSexagesimalFraction s

/-! ## Days and moments -/

/-- The parts of a day and of a time as they are written. -/
structure MomentText where
  year : List Char
  month : List Char
  day : List Char
  /-- The hour, the minute and the second. -/
  clock : Option (List Char × List Char × List Char) := none
  /-- The digits after the second. -/
  fraction : List Char := []
  /-- The sign, the hours and the minutes of a zone. -/
  zone : Option (Char × List Char × List Char) := none
  /-- Whether the zone is the common one. -/
  isCommon : Bool := false
deriving Repr, DecidableEq

/-- Some digits, at least `least` and at most `most`, and what follows. -/
def someDigits? (least most : Nat) (s : List Char) : Option (List Char × List Char) :=
  let found := (s.take most).takeWhile Char.isDigit
  if found.length < least then none else some (found, s.drop found.length)

/-- What follows a character. -/
def after? (c : Char) : List Char → Option (List Char)
  | d :: s => if d == c then some s else none
  | [] => none

/-- A day, and what follows. -/
def dayText? (s : List Char) : Option (MomentText × List Char) := do
  let (year, s) ← someDigits? 4 4 s
  let (month, s) ← someDigits? 1 2 (← after? '-' s)
  let (day, s) ← someDigits? 1 2 (← after? '-' s)
  return ({ year, month, day }, s)

/-- The zone of a moment, which reaches the end of the text; blanks stand before it. -/
def zoneText? (m : MomentText) (s : List Char) : Option MomentText :=
  match s.dropWhile isInset with
  | [] => if s.isEmpty then some m else none
  | ['Z'] => some { m with isCommon := true }
  | sign :: rest => do
    if sign != '-' && sign != '+' then none
    else
      let (hours, rest) ← someDigits? 1 2 rest
      if rest.isEmpty then some { m with zone := some (sign, hours, []) }
      else
        let (minutes, rest) ← someDigits? 2 2 (← after? ':' rest)
        if rest.isEmpty then some { m with zone := some (sign, hours, minutes) } else none

/-- The parts of a moment, after those of its day. -/
def clockText? (m : MomentText) (s : List Char) : Option MomentText := do
  let s ← if s.head?.any isInset then some (s.dropWhile isInset)
    else (after? 'T' s).or (after? 't' s)
  let (hour, s) ← someDigits? 1 2 s
  let (minute, s) ← someDigits? 2 2 (← after? ':' s)
  let (second, s) ← someDigits? 2 2 (← after? ':' s)
  let m := { m with clock := some (hour, minute, second) }
  match s with
  | '.' :: s => zoneText? { m with fraction := s.takeWhile Char.isDigit } (s.dropWhile Char.isDigit)
  | s => zoneText? m s

/-- The parts of a day or of a moment. -/
def momentText? (s : List Char) : Option MomentText := do
  let (m, rest) ← dayText? s
  if rest.isEmpty then some m else clockText? m rest

/-- Whether a text is a moment, or a day with two digits for the month and for the day. -/
def isMoment (s : List Char) : Bool :=
  (momentText? s).any fun m => m.clock.isSome || (m.month.length == 2 && m.day.length == 2)

/-! ## All forms -/

/-- A text without one line feed at its end. -/
def dropLineFeed (s : List Char) : List Char :=
  if s.getLast? == some '\n' then s.dropLast else s

/-- The kind that a form of a scalar tells. -/
def Tag.ofForm (s : String) : Tag :=
  let body := dropLineFeed s.toList
  let word := String.ofList body
  if s == "" then .null
  else if truthForms.contains word then .bool
  else if isReal body then .real
  else if isInteger body then .int
  else if word == "<<" then .merge
  else if nullForms.contains word then .null
  else if isMoment body then .moment
  else if word == "=" then .value
  else if word == "!" || word == "&" || word == "*" then .other
  else .text

end CallAtlas.Yaml
