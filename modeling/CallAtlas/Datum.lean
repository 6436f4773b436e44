import CallAtlas.Text.Quoted

/-!
# Answers as data

Answers and error details are plain data: nothing, truth values, integers, decimal
fractions, texts, lists and records whose fields keep their order. `Datum.print` writes
them as indented JSON in ASCII.
-/

namespace CallAtlas

/-- Plain data. -/
inductive Datum
  | null
  | bool (value : Bool)
  | int (value : Int)
  /-- A fraction, as the integer that is left when its point is moved behind its last place. -/
  | decimal (digits : Int) (places : Nat)
  | text (value : String)
  | list (items : List Datum)
  | record (fields : List (String × Datum))
deriving Repr, Inhabited

namespace Datum

/-- A natural number as data. -/
def nat (n : Nat) : Datum :=
  .int (Int.ofNat n)

/-- A value that may be absent, as data. -/
def ofOption {α : Type} (f : α → Datum) : Option α → Datum
  | none => .null
  | some a => f a

/-- A decimal fraction. At least one digit stands before the point. -/
def printDecimal (digits : Int) (places : Nat) : String :=
  let shown := (toString digits.natAbs).toList
  let padded := List.replicate (places + 1 - shown.length) '0' ++ shown
  let cut := padded.length - places
  (if digits < 0 then "-" else "") ++
    String.ofList (padded.take cut ++ '.' :: padded.drop cut)

/-- One sixteen-bit unit as a JSON escape. -/
def escapeUnit (n : Nat) : List Char :=
  ['\\', 'u'] ++ Text.hexPadded 4 n

/-- One character of a JSON string in ASCII. Beyond the basic plane it takes two units. -/
def escapeChar (c : Char) : List Char :=
  if c == '"' then ['\\', '"']
  else if c == '\\' then ['\\', '\\']
  else if c == '\n' then ['\\', 'n']
  else if c == '\r' then ['\\', 'r']
  else if c == '\t' then ['\\', 't']
  else if c == '\x08' then ['\\', 'b']
  else if c == '\x0c' then ['\\', 'f']
  else if 0x20 ≤ c.toNat && c.toNat < 0x7f then [c]
  else if c.toNat < 0x10000 then escapeUnit c.toNat
  else
    let n := c.toNat - 0x10000
    escapeUnit (0xd800 + n / 0x400) ++ escapeUnit (0xdc00 + n % 0x400)

/-- A JSON string in ASCII. -/
def printText (s : String) : String :=
  "\"" ++ String.ofList (s.toList.flatMap escapeChar) ++ "\""

/-- A new line, indented by two spaces for each level. -/
def newline (level : Nat) : String :=
  String.ofList ('\n' :: List.replicate (2 * level) ' ')

/-- Items between brackets, each on a line of its own one level further in. -/
def printBlock (opening closing : String) (level : Nat) (items : List String) : String :=
  if items.isEmpty then opening ++ closing
  else
    opening ++ newline (level + 1) ++ String.intercalate ("," ++ newline (level + 1)) items ++
      newline level ++ closing

mutual

/-- Data as JSON, at a level of indentation. -/
def printAt (level : Nat) : Datum → String
  | .null => "null"
  | .bool value => if value then "true" else "false"
  | .int value => toString value
  | .decimal digits places => printDecimal digits places
  | .text value => printText value
  | .list items => printBlock "[" "]" level (printItems (level + 1) items)
  | .record fields => printBlock "\x7b" "\x7d" level (printFields (level + 1) fields)

/-- The items of a list as JSON. -/
def printItems (level : Nat) : List Datum → List String
  | [] => []
  | item :: items => printAt level item :: printItems level items

/-- The fields of a record as JSON. -/
def printFields (level : Nat) : List (String × Datum) → List String
  | [] => []
  | (key, value) :: fields =>
    (printText key ++ ": " ++ printAt level value) :: printFields level fields

end

/-- Data as indented JSON in ASCII. -/
def print (d : Datum) : String :=
  printAt 0 d

end Datum
end CallAtlas
