import CallAtlas.Calendar
import CallAtlas.Numeral
import CallAtlas.Text.Encoding

/-!
# Faults of a configuration text

Why a text gives no value. Most texts that are refused are not well formed; some
are, but a scalar in them has a tag that its text does not fit.
-/

namespace CallAtlas.Yaml

/-- Why a text gives no value. -/
inductive Fault
  | malformed
  /-- The text ends inside a quoted scalar. -/
  | unclosed
  /-- The bytes of the text break their encoding. -/
  | encoding (cause : Text.EncodingFault)
  /-- An escape gives the number of no character. -/
  | noChar
  /-- An escape gives a number of more than 31 bits. -/
  | oversizedChar
  | numeral (cause : NumeralError)
  /-- A number without any digits. -/
  | emptyNumber
  /-- A truth value that is no word for one. -/
  | notTruth (word : List Char)
  /-- A decimal fraction that is none. -/
  | notReal (text : List Char)
  /-- A number in base sixty has a part too far from its end. -/
  | oversizedReal
  | calendar (cause : CalendarError)
  /-- A moment that has not the form of one. -/
  | notMoment
  /-- A moment that is given as a record. -/
  | momentInRecord
deriving Repr, DecidableEq

/-- The wording of a fault; none for texts that are not well formed. -/
def Fault.message : Fault → String
  | malformed => ""
  | unclosed => ""
  | encoding cause => cause.message
  | noChar => "chr() arg not in range(0x110000)"
  | oversizedChar => "Python int too large to convert to C int"
  | numeral cause => cause.message
  | emptyNumber => "string index out of range"
  | notTruth word => String.ofList (Text.quoted word)
  | notReal text => "could not convert string to float: " ++ String.ofList (Text.quoted text)
  | oversizedReal => "int too large to convert to float"
  | calendar cause => cause.message
  | notMoment => "'NoneType' object has no attribute 'groupdict'"
  | momentInRecord => "expected string or bytes-like object, got 'list'"

end CallAtlas.Yaml
