import CallAtlas.Yaml.Scalar

/-!
# Tags

A tag tells the kind of a value. It is written as a handle and a suffix, and a
document says what its handles stand for; in angle brackets it stands for itself.
In a suffix, a percent sign and two hexadecimal digits stand for a byte.
-/

namespace CallAtlas.Yaml

/-! ## The written form -/

/-- A tag as it is written. One without a handle stands for itself. -/
structure TagText where
  handle : Option String
  suffix : String
deriving Repr, DecidableEq

/-- The tag that asks for the kind that the form of a scalar gives. -/
def bareTag : String := "!"

/-- What handles stand for. -/
abbrev TagHandles := List (String × String)

/-- What the handle of the standard tags stands for. -/
def standardTag : String := "tag:yaml.org,2002:"

/-- The handles that every document has unless it says otherwise. -/
def defaultHandles : TagHandles :=
  [("!", "!"), ("!!", standardTag)]

/-- The full name of a tag; none if its handle is not known. -/
def TagText.name? (t : TagText) (handles : TagHandles) : Option String :=
  match t.handle with
  | none => some t.suffix
  | some handle => (handles.lookup handle).map (· ++ t.suffix)

/-- A character of the name of an anchor, a handle or a directive. -/
def isNameChar (c : Char) : Bool :=
  c.isAlphanum || c == '-' || c == '_'

/-- A character of a suffix. -/
def isSuffixChar (c : Char) : Bool :=
  c.isAlphanum || "-;/?:@&=+$,_.!~*'()[]%".toList.contains c

/-- Whether the line or the text ends here, or a space comes. -/
def atSpace (k : Cursor) : Bool :=
  k.atEnd || k.sees fun c => c == ' ' || isBreak c

/-- The text that some bytes are. -/
def bytesText? (bytes : List UInt8) : Option (List Char) :=
  (String.fromUTF8? ⟨bytes.toArray⟩).map String.toList

/-- A suffix with the bytes that percent signs stand for, after some bytes of it. The bytes that
stand together are text. -/
def unescapeFrom (bytes : List UInt8) : List Char → Option (List Char)
  | [] => bytesText? bytes
  | '%' :: a :: b :: rest => do
    let n ← hexNumber? 2 [a, b]
    unescapeFrom (bytes ++ [n.toUInt8]) rest
  | c :: rest =>
    if c == '%' then none
    else do
      let before ← bytesText? bytes
      let after ← unescapeFrom [] rest
      return before ++ c :: after

/-- A suffix, which has a character at least, and the place after it. -/
def suffix? (k : Cursor) : Option (String × Cursor) := do
  let (found, k) := k.run isSuffixChar
  if found.isEmpty then none
  else return (String.ofList (← unescapeFrom [] found), k)

/-- A handle between exclamation marks, or one mark before a space. -/
def handle? (k : Cursor) : Option (String × Cursor) :=
  if k.head? != some '!' then none
  else if k.advance.head? == some ' ' then some ("!", k.advance)
  else
    let (name, k) := k.advance.run isNameChar
    if k.head? == some '!' then some (String.ofList ('!' :: name ++ ['!']), k.advance) else none

/-- A tag, read at its exclamation mark, and the place after it. -/
def tagText? (k : Cursor) : Option (TagText × Cursor) := do
  let inside := k.advance
  let (tag, k) ←
    if inside.head? == some '<' then do
      let (suffix, k) ← suffix? inside.advance
      if k.head? == some '>' then some (⟨none, suffix⟩, k.advance) else none
    else if inside.gapAfter 0 then some (TagText.mk none bareTag, inside)
    else if (inside.rest.takeWhile fun c => !(c == ' ' || isBreak c)).contains '!' then do
      let (handle, k) ← handle? k
      let (suffix, k) ← suffix? k
      pure (TagText.mk (some handle) suffix, k)
    else do
      let (suffix, k) ← suffix? inside
      pure (TagText.mk (some "!") suffix, k)
  if atSpace k then return (tag, k) else none

/-! ## The kind -/

/-- The kinds of values that tags tell. -/
inductive Tag
  | null
  | bool
  | int
  | real
  | bytes
  | moment
  | text
  | list
  | record
  | set
  /-- A list of pairs, given as records of one entry. -/
  | pairs
  /-- The key that merges other records into a record. -/
  | merge
  /-- The key whose value a record stands for. -/
  | value
  /-- A tag that is not known. -/
  | other
deriving Repr, DecidableEq

/-- The standard tags by their names. -/
def Tag.names : List (String × Tag) :=
  [("null", .null), ("bool", .bool), ("int", .int), ("float", .real), ("binary", .bytes),
    ("timestamp", .moment), ("str", .text), ("seq", .list), ("map", .record), ("set", .set),
    ("omap", .pairs), ("pairs", .pairs), ("merge", .merge), ("value", .value)]

/-- The tag with a full name. -/
def Tag.ofName (name : String) : Tag :=
  ((Tag.names.find? fun (short, _) => standardTag ++ short == name).map Prod.snd).getD .other

end CallAtlas.Yaml
