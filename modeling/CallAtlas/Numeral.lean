import CallAtlas.Text.Blank
import CallAtlas.Text.Digit
import CallAtlas.Text.Quoted

/-!
# Numerals

Integers as users and files write them: surrounding blanks, one sign, decimal
digits of any script, and single underscores between digits. A numeral has at
most `maxDigits` digits.
-/

namespace CallAtlas

/-- The most digits that a numeral may have. -/
def maxDigits : Nat := 4300

/-- Why a text is not read as an integer. -/
inductive NumeralError
  /-- The text is not a numeral of a base at all. -/
  | malformed (text : List Char) (base : Nat := 10)
  /-- It has more digits than are read. -/
  | tooLong (digits : Nat)
deriving Repr, DecidableEq

/-- How many characters of the offending text a message shows, quotes included. -/
def shownChars : Nat := 200

/-- The wording of a numeral error. -/
def NumeralError.message : NumeralError → String
  | .malformed text base =>
    "invalid literal for int() with base " ++ toString base ++ ": " ++
      String.ofList ((Text.quoted text).take shownChars)
  | .tooLong digits =>
    "Exceeds the limit (" ++ toString maxDigits ++
      " digits) for integer string conversion: value has " ++ toString digits ++
      " digits; use sys.set_int_max_str_digits() to increase the limit"

namespace Numeral

/-- A blank that may stand around a numeral. The information separators may not. -/
def isPadding (c : Char) : Bool :=
  Text.isBlank c && !(0x1c ≤ c.toNat && c.toNat ≤ 0x1f)

/-- A text without padding on either side. -/
def unpad (s : List Char) : List Char :=
  ((s.dropWhile isPadding).reverse.dropWhile isPadding).reverse

/-- The sign of a numeral, true for minus, and what follows it. -/
def sign : List Char → Bool × List Char
  | '-' :: s => (true, s)
  | '+' :: s => (false, s)
  | s => (false, s)

/-- The digits at the start of a text, single underscores between them, and what follows.
`mayEnd` says that a digit stands just before, so that the digits may end here. -/
def digitsFrom (mayEnd : Bool) : List Char → Option (List Nat × List Char)
  | [] => if mayEnd then some ([], []) else none
  | c :: s =>
    match Text.digitValue? c with
    | some d => (digitsFrom true s).map fun found => (d :: found.1, found.2)
    | none =>
      if !mayEnd then none
      else if c == '_' then digitsFrom false s
      else some ([], c :: s)

/-- The number that a list of decimal digits writes. -/
def value (digits : List Nat) : Nat :=
  digits.foldl (fun n d => 10 * n + d) 0

/-- Reads an integer. Too many digits are reported before anything that follows them. -/
def readInt (s : List Char) : Except NumeralError Int :=
  let signed := sign (s.dropWhile isPadding)
  match digitsFrom false signed.2 with
  | none => .error (.malformed s)
  | some (digits, rest) =>
    if digits.length > maxDigits then .error (.tooLong digits.length)
    else if rest.all isPadding then
      .ok (if signed.1 then - Int.ofNat (value digits) else Int.ofNat (value digits))
    else .error (.malformed s)

/-- The value of a hexadecimal digit. -/
def hexValue? (c : Char) : Option Nat :=
  if '0' ≤ c && c ≤ '9' then some (c.toNat - '0'.toNat)
  else if 'a' ≤ c && c ≤ 'f' then some (c.toNat - 'a'.toNat + 10)
  else if 'A' ≤ c && c ≤ 'F' then some (c.toNat - 'A'.toNat + 10)
  else none

/-- The value of a digit in a base of at most sixteen; decimal digits are of any script. -/
def digitIn? (base : Nat) (c : Char) : Option Nat :=
  ((Text.digitValue? c).or (hexValue? c)).filter (· < base)

/-- The letter that marks a base after a zero. -/
def baseMark? : Nat → Option Char
  | 2 => some 'b'
  | 8 => some 'o'
  | 16 => some 'x'
  | _ => none

/-- A numeral without the mark of its base, which may stand before its digits. -/
def dropBaseMark (base : Nat) (s : List Char) : List Char :=
  match s with
  | '0' :: c :: rest => if baseMark? base == some c.toLower then rest else s
  | s => s

/-- The number that a list of digits writes in a base. -/
def valueIn (base : Nat) (digits : List Nat) : Nat :=
  digits.foldl (fun n d => base * n + d) 0

/-- Reads an integer in base two, eight or sixteen, of any length and without underscores. -/
def readIntIn (base : Nat) (s : List Char) : Except NumeralError Int :=
  let signed := sign (unpad s)
  match (dropBaseMark base signed.2).mapM (digitIn? base) with
  | some (d :: digits) =>
    let n := Int.ofNat (valueIn base (d :: digits))
    .ok (if signed.1 then -n else n)
  | _ => .error (.malformed s base)

/-- Whether an integer fits 64 bits, one of them for the sign. -/
def fitsWord (n : Int) : Bool :=
  -0x8000000000000000 ≤ n && n < 0x8000000000000000

end Numeral
end CallAtlas
