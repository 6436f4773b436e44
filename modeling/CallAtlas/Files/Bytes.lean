import CallAtlas.Files.Tree
import CallAtlas.Store.Archive

/-!
# Files as bytes

What a file of a tree holds is bytes or a database. On a disk both are bytes: a
database is the text it is written as.
-/

namespace CallAtlas.Content

/-- What a file with some bytes holds. -/
def ofBytes (data : ByteArray) : Content :=
  match (String.fromUTF8? data).bind fun s => Store.Archive.read? s.toList with
  | some d => .database d
  | none => .bytes data

/-- The bytes of a file. -/
def toBytes : Content → ByteArray
  | .bytes data => data
  | .database d => (String.ofList (Store.Archive.write d)).toUTF8

end CallAtlas.Content
