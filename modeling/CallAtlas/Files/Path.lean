import CallAtlas.Location
import CallAtlas.Text.Case

/-!
# Paths of files

A path is an anchor and names: relative paths have no anchor, absolute ones a
slash, and two slashes at the start stay apart from one. Empty names and points
are left out; `..` stays, because what it leads to depends on the files.
-/

namespace CallAtlas

/-- A path in a file system. -/
structure Path where
  /-- How many slashes stand at the start: none, one or two. -/
  slashes : Nat := 0
  names : List String := []
deriving Repr, DecidableEq

namespace Path

/-- The name of the folder above. -/
def up : String := ".."

/-- A path as it is written. -/
def ofString (s : String) : Path :=
  { slashes := Location.leadingSlashes s.toList
    names := ((Location.components s.toList).filter fun c => c != [] && c != ['.']).map
      String.ofList }

/-- The text of a path. The empty path is a point. -/
def text (p : Path) : String :=
  let names := String.intercalate "/" p.names
  if p.slashes == 0 && p.names.isEmpty then "."
  else String.ofList (List.replicate p.slashes '/') ++ names

/-- Whether a path starts at the top. -/
def isAbsolute (p : Path) : Bool :=
  p.slashes != 0

/-- The path without its last name. -/
def parent (p : Path) : Path :=
  { p with names := p.names.dropLast }

/-- The last name, empty if there is none. -/
def name (p : Path) : String :=
  p.names.getLast?.getD ""

/-- A path extended by names. -/
def append (p : Path) (names : List String) : Path :=
  { p with names := p.names ++ names }

/-- The non-empty beginnings of a list of names, the shortest first. -/
def takes (names : List String) : List (List String) :=
  (List.range names.length).map fun n => names.take (n + 1)

/-- The extension of a file name with its point. A point at either end makes none. -/
def extension (name : String) : String :=
  let ending := name.toList.reverse.takeWhile (· != '.')
  let before := name.toList.reverse.drop (ending.length + 1)
  if ending.isEmpty || before.isEmpty then "" else String.ofList ('.' :: ending.reverse)

/-- Names from the top, with each `..` taking the name before it away. -/
def collapse (names : List String) : List String :=
  names.foldl (fun done name => if name = up then done.dropLast else done ++ [name]) []

/-- The names from the top to a path, for a process that works in a folder. -/
def absolute (workFolder : List String) (p : Path) : List String :=
  collapse (if p.isAbsolute then p.names else workFolder ++ p.names)

/-- Whether a path has a null character. Such a path leads nowhere. -/
def hasNull (p : Path) : Bool :=
  p.names.any (·.toList.contains '\x00')

/-- How many bytes a path has. -/
def size (p : Path) : Nat :=
  p.text.utf8ByteSize

/-- The module path of a file below a source root: the way from the root to it. A file that is
not below the root keeps its path, and so does one if either leads nowhere. -/
def moduleIn (workFolder : List String) (root file : Path) : String :=
  let rootNames := root.absolute workFolder
  let fileNames := file.absolute workFolder
  let isBelow := rootNames.isPrefixOf fileNames && !root.hasNull && !file.hasNull
  let shown : Path := if isBelow then ⟨0, fileNames.drop rootNames.length⟩ else file
  String.ofList ('/' :: shown.text.toList.dropWhile (· == '/'))

/-! ## Order -/

/-- Whether one list comes no later than another: at the first place where they differ its item
goes before the other one, or it ends there. -/
def inOrder {α : Type} [BEq α] (before : α → α → Bool) : List α → List α → Bool
  | [], _ => true
  | _ :: _, [] => false
  | a :: as, b :: bs => before a b || (a == b && inOrder before as bs)

/-- Whether a name goes before another one, by code points. -/
def nameBefore (a b : String) : Bool :=
  a != b && inOrder (fun c d => decide (c.toNat < d.toNat)) a.toList b.toList

/-- Whether a way comes no later than another one, name by name. -/
def namesInOrder (a b : List String) : Bool :=
  inOrder nameBefore a b

end Path
end CallAtlas
