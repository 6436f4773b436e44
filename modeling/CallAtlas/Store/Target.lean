import CallAtlas.Files.Path
import CallAtlas.Numeral

/-!
# Where a store is written

A store is written to the file with its name. Some names mean more. One name keeps a
store in memory, so that nothing is written. A name that starts with `file:` gives a
path, in which a percent sign and two hexadecimal digits stand for a byte, and after a
question mark options that say how the file is opened; a number sign ends both.

Whether `file:` has this meaning is a setting of the database system. It is on here, and
what is said of such names holds where it is on; where it is off, they are names of plain
files like all others. The other names mean the same either way.
-/

namespace CallAtlas.Store

/-- How a file is opened. -/
inductive Access
  /-- The file is there and is only read. -/
  | reading
  /-- The file is there. -/
  | existing
  /-- The file is made if it is not there. -/
  | making
  /-- No file is opened. -/
  | memory
deriving Repr, DecidableEq

namespace Access

/-- The word for an access. -/
def ofWord? : String → Option Access
  | "ro" => some reading
  | "rw" => some existing
  | "rwc" => some making
  | "memory" => some memory
  | _ => none

/-- What an access includes: a later one may not include more than an earlier one. -/
def rank : Access → Nat
  | reading => 1
  | existing => 2
  | making => 6
  | memory => 128

/-- Whether an access may follow another one. -/
def mayFollow (a earlier : Access) : Bool :=
  a == memory || a.rank ≤ earlier.rank

end Access

/-- Where a store is written, and how the file is opened. -/
structure Target where
  path : Path
  access : Access := .making
  /-- Whether the file is taken for one that never changes. -/
  isFrozen : Bool := false
  /-- Whether the store is kept in memory, whatever the path. -/
  inMemory : Bool := false
deriving Repr, DecidableEq

namespace Target

/-- Whether nothing can be written. -/
def isReadOnly (t : Target) : Bool :=
  t.access == .reading || t.isFrozen

/-- The name of a store in memory. -/
def memoryName : String := ":memory:"

/-- What stands before the names that give a path and options. -/
def scheme : List Char := "file:".toList

/-- The bytes of a part of a name. A zero byte ends the part. -/
def bytesOf : List Char → List UInt8
  | [] => []
  | '%' :: a :: b :: s =>
    match Numeral.hexValue? a, Numeral.hexValue? b with
    | some m, some n => if 16 * m + n = 0 then [] else (16 * m + n).toUInt8 :: bytesOf s
    | _, _ => '%'.toUInt8 :: bytesOf (a :: b :: s)
  | c :: s => (String.singleton c).toUTF8.toList ++ bytesOf s

/-- The text of a part of a name. -/
def textOf (s : List Char) : String :=
  (String.fromUTF8? ⟨(bytesOf s).toArray⟩).getD ""

/-- The options after a question mark: names with values. Those without a name do not count. -/
def options (s : List Char) : List (String × String) :=
  let option (part : List Char) :=
    (textOf (part.takeWhile (· != '=')), textOf ((part.dropWhile (· != '=')).drop 1))
  ((s.splitOn '&').map option).filter (·.1 != "")

/-- The system of files that keeps them in memory. -/
def memorySystem : String := "memdb"

/-- The systems of files that are known. -/
def systems : List String :=
  ["unix", "unix-none", "unix-dotfile", "unix-excl", memorySystem]

/-- Whether the text of an option means yes. -/
def isYes (s : String) : Bool :=
  let word := s.toList.map Char.toLower
  ["on", "yes", "true"].any (·.toList == word) ||
    (s.toList.takeWhile Char.isDigit).any (· != '0')

/-- Applies an option. -/
def applyOption (t : Target) (option : String × String) : Except String Target :=
  match option with
  | ("mode", word) =>
    match Access.ofWord? word with
    | none => .error ("no such access mode: " ++ word)
    | some access =>
      if access.mayFollow t.access then .ok { t with access }
      else .error ("access mode not allowed: " ++ word)
  | ("cache", word) =>
    if word == "shared" || word == "private" then .ok t
    else .error ("no such cache mode: " ++ word)
  | _ => .ok t

/-- The last value of an option. -/
def lastValue? (os : List (String × String)) (name : String) : Option String :=
  ((os.filter (·.1 == name)).getLast?).map Prod.snd

/-- The first value of an option. -/
def firstValue? (os : List (String × String)) (name : String) : Option String :=
  (os.find? (·.1 == name)).map Prod.snd

/-- Where a store with a name is written, or why it cannot be, by a database system that takes
names with the scheme for paths with options. -/
def ofName (name : String) : Except String Target := do
  if name == memoryName then return { path := .ofString name, inMemory := true }
  else if !scheme.isPrefixOf name.toList then return { path := .ofString name }
  else
    let rest := (name.toList.drop scheme.length).takeWhile (· != '#')
    let file := textOf (rest.takeWhile (· != '?'))
    let os := options ((rest.dropWhile (· != '?')).drop 1)
    let start : Target :=
      { path := .ofString file, isFrozen := (firstValue? os "immutable").any isYes }
    let t ← os.foldlM applyOption start
    let system := (lastValue? os "vfs").getD "unix"
    if !systems.contains system then throw ("no such vfs: " ++ system)
    else if file == "" || file == memoryName || t.access == .memory then
      return { t with inMemory := true, isFrozen := false }
    else return { t with inMemory := system == memorySystem }

end Target
end CallAtlas.Store
