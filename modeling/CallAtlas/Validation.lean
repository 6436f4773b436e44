import CallAtlas.Text.Digit

/-!
# Validation

An input is checked part by part. What is wrong with a part is an issue at a place,
and all issues are collected, in the order of the parts.
-/

namespace CallAtlas

/-- A step on the way to a part of an input. -/
inductive Place
  | field (name : String)
  | index (n : Nat)
deriving Repr, DecidableEq

/-- What is wrong with a part of an input. -/
inductive IssueKind
  | missing
  | notText
  /-- Bytes where a text should be that are none. -/
  | unreadableText
  | notPath
  | notList
  | notBool
  | unreadableBool
  | notRecord
  | unreadableInt
  | oversizedInt
deriving Repr, DecidableEq

/-- The name of a kind of issues. -/
def IssueKind.name : IssueKind → String
  | missing => "missing"
  | notText => "string_type"
  | unreadableText => "string_unicode"
  | notPath => "path_type"
  | notList => "list_type"
  | notBool => "bool_type"
  | unreadableBool => "bool_parsing"
  | notRecord => "model_type"
  | unreadableInt => "int_parsing"
  | oversizedInt => "int_parsing_size"

/-- An issue with a part of an input. -/
structure Issue where
  kind : IssueKind
  place : List Place
deriving Repr, DecidableEq

/-- A checked value, or every issue with it. -/
abbrev Validated (α : Type) := Except (List Issue) α

namespace Validated

/-- A single issue. -/
def issue {α : Type} (kind : IssueKind) (place : List Place) : Validated α :=
  .error [⟨kind, place⟩]

/-- Two checks side by side; the issues of the first come first. -/
def both {α β : Type} (a : Validated α) (b : Validated β) : Validated (α × β) :=
  match a, b with
  | .ok a, .ok b => .ok (a, b)
  | .ok _, .error issues => .error issues
  | .error issues, .ok _ => .error issues
  | .error issues, .error more => .error (issues ++ more)

/-- Many checks side by side. -/
def every {α : Type} : List (Validated α) → Validated (List α)
  | [] => .ok []
  | check :: checks => (both check (every checks)).map fun (a, as) => a :: as

/-- The words for true. -/
def trueWords : List String := ["1", "on", "t", "true", "y", "yes"]

/-- The words for false. -/
def falseWords : List String := ["0", "off", "f", "false", "n", "no"]

/-- The truth value that a word stands for, in any case. -/
def truthOf? (s : String) : Option Bool :=
  let word := String.ofList (s.toList.map Char.toLower)
  if trueWords.contains word then some true
  else if falseWords.contains word then some false
  else none

/-- A truth value, given as a word. -/
def truth (place : List Place) (s : String) : Validated Bool :=
  match truthOf? s with
  | some b => .ok b
  | none => issue .unreadableBool place

end Validated
end CallAtlas
