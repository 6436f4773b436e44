import CallAtlas.Numeral

/-!
# Addresses of requests

An address leads to a path of the server. The protocol and the name of a server may
stand before the path, and parameters or the name of a part of the answer behind it.
Names that are a dot are left out of the path, and two dots take a name back. A percent
sign and two hexadecimal digits stand for a character, in a text that is read twice.
-/

namespace CallAtlas.Server.Address

/-- An address without what stands behind its path. -/
def dropEnd (s : List Char) : List Char :=
  s.takeWhile fun c => c != '?' && c != '#'

/-- A character of the name of a protocol. -/
def isProtocolChar (c : Char) : Bool :=
  c.isAlphanum || c == '+' || c == '.' || c == '-'

/-- An address without the name of a protocol. -/
def dropProtocol (s : List Char) : List Char :=
  match s.dropWhile isProtocolChar with
  | ':' :: rest => if s.head?.any Char.isAlpha then rest else s
  | _ => s

/-- An address without the name of a server, which follows two slashes. -/
def dropServer : List Char → List Char
  | '/' :: '/' :: s => s.dropWhile (· != '/')
  | s => s

/-- The names on a path from the last one on, with one more name. -/
def addName (names : List (List Char)) (name : List Char) : List (List Char) :=
  if name == ['.'] then names
  else if name == ['.', '.'] then names.tail
  else name :: names

/-- The names on a path without those that are dots. -/
def plainNames (names : List (List Char)) : List (List Char) :=
  (names.foldl addName []).reverse

/-- A text with the characters that escapes stand for. Escapes beyond ASCII stay, since no
path of the server has such characters. -/
def unescape : List Char → List Char
  | '%' :: a :: b :: s =>
    match Numeral.hexValue? a, Numeral.hexValue? b with
    | some m, some n =>
      if m < 8 then Char.ofNat (16 * m + n) :: unescape s else '%' :: unescape (a :: b :: s)
    | _, _ => '%' :: unescape (a :: b :: s)
  | c :: s => c :: unescape s
  | [] => []

/-- The path that an address leads to. -/
def path (address : String) : List Char :=
  let bare := (dropServer (dropProtocol (dropEnd address.toList))).dropWhile (· == '/')
  unescape (unescape ('/' :: ['/'].intercalate (plainNames (bare.splitOn '/'))))

end CallAtlas.Server.Address
