/-!
# Comments

A comment starts with `(:` and ends with the first `:)` after that. Comments do
not nest, and an opening that is never closed is plain text.
-/

namespace CallAtlas.Source

/-- What follows the first `:)` of a text. -/
def afterComment? : List Char → Option (List Char)
  | [] => none
  | ':' :: ')' :: s => some s
  | _ :: s => afterComment? s

theorem length_lt_of_afterComment? {s rest : List Char} (h : afterComment? s = some rest) :
    rest.length < s.length := by
  fun_induction afterComment? s with
  | case1 => cases h
  | case2 s =>
    cases h
    simp only [List.length_cons]
    omega
  | case3 c s _ ih =>
    have shorter := ih h
    simp only [List.length_cons]
    omega

/-- A text without its comments. -/
def stripComments : List Char → List Char
  | [] => []
  | '(' :: ':' :: s =>
    match h : afterComment? s with
    | some rest =>
      have := length_lt_of_afterComment? h
      stripComments rest
    | none => '(' :: stripComments (':' :: s)
  | c :: s => c :: stripComments s
termination_by s => s.length
decreasing_by
  all_goals simp only [List.length_cons]
  all_goals omega

end CallAtlas.Source
