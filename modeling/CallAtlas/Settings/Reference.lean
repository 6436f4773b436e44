import CallAtlas.Settings

/-!
# References to variables

A value may refer to variables: a dollar sign and a name in braces stand for the value
of the variable, and `:-` after the name gives what stands for it where there is none.
Variables that are set go before those that earlier assignments give.
-/

namespace CallAtlas

/-- A reference to a variable, with what stands for it where there is none. -/
structure Reference where
  name : String
  default : String := ""
deriving Repr, DecidableEq

namespace Reference

/-- Whether a character ends the name of a reference. -/
def endsName (c : Char) : Bool :=
  c == ':' || c == '\x7d'

/-- The reference whose name starts a text, and what follows its closing brace. -/
def read? (s : List Char) : Option (Reference × List Char) :=
  let name := String.ofList (s.takeWhile (!endsName ·))
  match s.dropWhile (!endsName ·) with
  | '\x7d' :: rest => some (⟨name, ""⟩, rest)
  | ':' :: '-' :: rest =>
    match rest.dropWhile (· != '\x7d') with
    | _ :: after => some (⟨name, String.ofList (rest.takeWhile (· != '\x7d'))⟩, after)
    | [] => none
  | _ => none

/-- What is left after a reference is shorter than what it was read from. -/
theorem length_read?_lt {s rest : List Char} {r : Reference} (h : read? s = some (r, rest)) :
    rest.length < s.length := by
  have cut := (List.dropWhile_sublist (p := (!endsName ·)) (l := s)).length_le
  unfold read? at h
  split at h
  next eq =>
    obtain ⟨-, rfl⟩ := Prod.mk.inj (Option.some.inj h)
    simp only [eq, List.length_cons] at cut
    omega
  next after eq =>
    split at h
    next eq' =>
      have inner := (List.dropWhile_sublist (p := (· != '\x7d')) (l := after)).length_le
      obtain ⟨-, rfl⟩ := Prod.mk.inj (Option.some.inj h)
      simp only [eq, eq', List.length_cons] at cut inner
      omega
    next => cases h
  next => cases h

/-- The value of a reference. A name without a value stands for the empty text. -/
def resolve (vars : Variables) (given : Table String (Option String)) (r : Reference) : String :=
  match vars.get? r.name, given.get? r.name with
  | some value, _ => value
  | none, some value => value.getD ""
  | none, none => r.default

/-- A text with the values of the references in it. -/
def expand (value : Reference → String) (s : List Char) : List Char :=
  match s with
  | [] => []
  | '$' :: '\x7b' :: s =>
    match h : read? s with
    | some (r, rest) =>
      have := length_read?_lt h
      (value r).toList ++ expand value rest
    | none => '$' :: expand value ('\x7b' :: s)
  | c :: s => c :: expand value s
termination_by s.length
decreasing_by
  all_goals simp only [List.length_cons]
  all_goals omega

end Reference
end CallAtlas
