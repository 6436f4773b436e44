import CallAtlas.Source.Balanced
import CallAtlas.Source.CallSite

/-!
# Offsets from the end

An offset below zero counts from the end of a text. A walk that starts there goes on
at the start of the text when it reaches the end, and tells offsets as it counted
them. Before the start of the text there is nothing to walk.
-/

namespace CallAtlas

/-- The number of the line that holds an offset. One before the start of the text counts as the
start. -/
def Text.lineAt (s : List Char) (offset : Int) : Nat :=
  Text.lineOf s (if offset < 0 then (Int.ofNat s.length + offset).toNat else offset.toNat)

namespace Source

/-- The walk from an offset below zero: from there to the end, and then the whole text. -/
def walkFrom (s : List Char) (offset : Int) : Except OffsetError (List Char) :=
  if offset.natAbs ≤ s.length then .ok (s.drop (s.length - offset.natAbs) ++ s)
  else .error .outOfRange

/-- The offset just after the literal that is opened at an offset. -/
def literalEndAt (s : List Char) (offset : Int) : Except OffsetError Int := do
  if offset < 0 then
    return offset + Int.ofNat (← literalEnd (← walkFrom s offset) 0)
  else
    return Int.ofNat (← literalEnd s offset.toNat)

/-- The offset that a search finds from an offset on. -/
def searchAt (search : List Char → Nat → Option Nat) (s : List Char) (offset : Int) :
    Except OffsetError (Option Int) := do
  if offset < 0 then
    return (search (← walkFrom s offset) 0).map fun found => offset + Int.ofNat found
  else
    return (search s offset.toNat).map Int.ofNat

/-- The offset of the delimiter that matches the opening one at an offset. -/
def findClosingAt (isOpen isClose : Char → Bool) (s : List Char) (offset : Int) :
    Except OffsetError (Option Int) :=
  searchAt (findClosing? isOpen isClose) s offset

/-- The offset of the brace that ends the body opened at an offset. -/
def findBodyEndAt (s : List Char) (offset : Int) : Except OffsetError (Option Int) :=
  searchAt findBodyEnd? s offset

/-- The calls in a body that lies at an offset of a text. -/
def callSitesAt (known : List String) (content : List Char) (offset : Int) (body : List Char) :
    Checked NumeralError (List CallSite) :=
  callSitesBy known (fun before => Text.lineAt content (offset + Int.ofNat before.length)) body

end Source
end CallAtlas
