import CallAtlas.Text.Blank

/-!
# Locations

Locations are texts in which slashes separate components. This module holds the
textual operations on them: the directory and the base of a location, its stem,
joining, and the normal form without empty, `.` and avoidable `..` components.
-/

namespace CallAtlas.Location

/-- The components of a location: what stands between its slashes, empty ones included. -/
def components (s : List Char) : List (List Char) :=
  s.splitOn '/'

/-- Components with a slash between neighbours. -/
def joinComponents (parts : List (List Char)) : List Char :=
  List.intercalate ['/'] parts

/-- What follows the last slash. -/
def base (s : List Char) : List Char :=
  (s.reverse.takeWhile (· != '/')).reverse

/-- Everything up to the last slash, without trailing slashes unless it is slashes alone. -/
def directory (s : List Char) : List Char :=
  let head := (s.reverse.dropWhile (· != '/'))
  let bare := head.dropWhile (· == '/')
  if bare.isEmpty then head.reverse else bare.reverse

/-- The base without its extension. Leading points belong to the name. -/
def stem (s : List Char) : List Char :=
  let name := base s
  let beforePoint := (name.reverse.dropWhile (· != '.')).tail.reverse
  if beforePoint.all (· == '.') then name else beforePoint

/-- A location read in a directory: unchanged if it starts with a slash. -/
def join (folder s : List Char) : List Char :=
  if s.head? == some '/' then s
  else if folder.isEmpty || folder.getLast? == some '/' then folder ++ s
  else folder ++ '/' :: s

/-- How many slashes the normal form keeps at the start: exactly two stay two. -/
def leadingSlashes (s : List Char) : Nat :=
  match (s.takeWhile (· == '/')).length with
  | 0 => 0
  | 2 => 2
  | _ => 1

/-- One component on top of a stack of components, the last one first. A `..` takes the last
one away; where there is none it is kept, unless the location is rooted. -/
def pushComponent (rooted : Bool) (stack : List (List Char)) (part : List Char) :
    List (List Char) :=
  if part == [] || part == ['.'] then stack
  else if part != ['.', '.'] then part :: stack
  else match stack with
    | [] => if rooted then [] else [part]
    | top :: rest => if top == ['.', '.'] then part :: stack else rest

/-- The normal form of a location. The empty one is a point. -/
def normalize (s : List Char) : List Char :=
  let slashes := leadingSlashes s
  let stack := (components s).foldl (pushComponent (slashes > 0)) []
  let text := List.replicate slashes '/' ++ joinComponents stack.reverse
  if text.isEmpty then ['.'] else text

/-- A location read in the directory of another one, in normal form. -/
def resolveIn (source s : List Char) : List Char :=
  normalize (join (directory source) s)

/-- The location that an import names. A bare file name lies beside the importing module;
anything with a slash is kept as written. -/
def ofImport (source s : List Char) : List Char :=
  if s.contains '/' then s else resolveIn source s

/-- Whether a location is explicitly relative: it starts with `./` or `../`. -/
def isRelative (s : List Char) : Bool :=
  "./".toList.isPrefixOf s || "../".toList.isPrefixOf s

end CallAtlas.Location
