import CallAtlas.Datum
import CallAtlas.Decimal
import CallAtlas.Text.Lines

/-!
# Values of graph files

An attribute of a graph, node or edge is an integer, a decimal fraction or a
text. Texts stand between double quotes, and a double quote inside is written
with a backslash before it; nothing else is escaped.
-/

namespace CallAtlas.Gml

/-- The value of an attribute. -/
inductive Value
  | int (value : Int)
  | real (value : Double)
  | text (value : String)
deriving Repr, DecidableEq

/-- A text with a backslash before each double quote. -/
def escape : List Char → List Char
  | [] => []
  | c :: s => if c == '"' then '\\' :: '"' :: escape s else c :: escape s

/-- A text without the backslashes before its double quotes. -/
def unescape : List Char → List Char
  | [] => []
  | '\\' :: '"' :: s => '"' :: unescape s
  | c :: s => c :: unescape s

/-- Undoing the escapes of a text gives it back. -/
theorem unescape_escape (s : List Char) : unescape (escape s) = s := by
  fun_induction escape s with
  | case1 => rfl
  | case2 c s hc ih =>
    simp only [beq_iff_eq] at hc
    simp [unescape, ih, hc]
  | case3 c s hc ih =>
    cases s with
    | nil => simp [escape, unescape]
    | cons d t =>
      by_cases hd : (d == '"') = true
      · simp only [escape, hd, if_true] at ih ⊢
        unfold unescape
        split
        · simp_all
        · simp_all
        · simp_all
      · unfold unescape
        split
        · simp_all
        · simp_all [escape]
        · simp_all

/-- A scalar as a text with its double quotes escaped. Absence is the empty text. -/
def escapeScalar : Datum → String
  | .int value => toString value
  | .bool value => if value then "True" else "False"
  | .text value => String.ofList (escape value.toList)
  | _ => ""

/-- Reads a value: a quoted text, an integer, a decimal fraction, or else a bare text. -/
def readValue (s : List Char) : Value :=
  match s with
  | '"' :: inside =>
    if inside.getLast? == some '"' then .text (String.ofList (unescape inside.dropLast))
    else .text (String.ofList s)
  | _ =>
    match Numeral.readInt s with
    | .ok n => .int n
    | .error _ =>
      match Double.read? s with
      | some d => .real d
      | none => .text (String.ofList s)

end CallAtlas.Gml
