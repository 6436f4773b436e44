import CallAtlas.Proofs.Canonical.Calls
import CallAtlas.Proofs.Written.Declarations

/-!
# Written expressions

An expression is a variable, a numeral, a string literal, or a call whose arguments are expressions.
Names, literals and gaps carry the conditions under which they can be told apart, so that every
expression can be written. The calls read from its text are its calls by known qualifiers, each
before those in its arguments: a scanner that has read the head of a call goes on behind the head
and not behind the parentheses, whether or not the qualifier is known.
-/

namespace CallAtlas.Written

open Source Canonical

/-! ## Expressions -/

/-- A character of numerals: digits, points, signs and letters for exponents are among them. -/
def isNumberChar (c : Char) : Bool :=
  Text.isNameChar c || c == '+'

/-- A numeral. -/
def isNumber (s : List Char) : Bool :=
  s.any Char.isDigit && s.all isNumberChar

/-- A string literal. -/
structure Quoted where
  quote : Char
  text : String
  delimiter : isQuote quote = true := by decide
  closed : quote ∉ text.toList := by decide
  colon : ':' ∉ text.toList := by decide

/-- What stands before the parentheses of a call. -/
structure Callee where
  qualifier : String
  name : String
  /-- The blanks before the parenthesis. -/
  gap : String
  grammar : isQualifier qualifier.toList = true := by decide
  named : isFunctionName name.toList = true := by decide
  blank : gap.toList.all Text.isBlank = true := by decide

/-- An expression to be written. -/
inductive Expression
  | var (name : { s : String // isParameterName s.toList = true })
  | numeral (digits : { s : String // isNumber s.toList = true })
  | literal (quoted : Quoted)
  | call (callee : Callee) (arguments : List Expression)

namespace Expression

mutual

/-- An expression as a text. -/
def text : Expression → List Char
  | .var name => '$' :: name.val.toList
  | .numeral digits => digits.val.toList
  | .literal quoted => quoted.quote :: (quoted.text.toList ++ [quoted.quote])
  | .call callee arguments =>
    (callee.qualifier.toList ++ ':' :: callee.name.toList) ++
      (callee.gap.toList ++ '(' :: (separated (texts arguments) ++ [')']))

/-- The texts of some expressions. -/
def texts : List Expression → List (List Char)
  | [] => []
  | e :: es => e.text :: texts es

end

mutual

/-- The calls in an expression, each before those in its arguments. -/
def calls : Expression → List Call
  | .var _ => []
  | .numeral _ => []
  | .literal _ => []
  | .call callee arguments =>
    ⟨callee.qualifier, callee.name, arguments.length⟩ :: callsAll arguments

/-- The calls in some expressions. -/
def callsAll : List Expression → List Call
  | [] => []
  | e :: es => e.calls ++ callsAll es

end

theorem texts_eq_map (es : List Expression) : texts es = es.map text := by
  induction es with
  | nil => rfl
  | cons e es ih => rw [texts, ih, List.map_cons]

theorem callsAll_eq_flatMap (es : List Expression) : callsAll es = es.flatMap calls := by
  induction es with
  | nil => rfl
  | cons e es ih => rw [callsAll, ih, List.flatMap_cons]

/-- What holds of a call if it holds of its arguments, and of everything that has none, holds of
every expression. -/
theorem induction {motive : Expression → Prop} (var : ∀ name, motive (.var name))
    (numeral : ∀ digits, motive (.numeral digits)) (literal : ∀ quoted, motive (.literal quoted))
    (call : ∀ callee arguments, (∀ e ∈ arguments, motive e) → motive (.call callee arguments))
    (e : Expression) : motive e :=
  @Expression.rec motive (fun es => ∀ e ∈ es, motive e) var numeral literal call
    (fun _ absent => nomatch absent) (fun _ _ own others => List.forall_mem_cons.2 ⟨own, others⟩) e

end Expression

/-! ## Calls read from expressions -/

/-- A text that can stand as an argument: it is balanced and not blank, and the heads found in it
are those of some calls, whatever stands around it. -/
structure Reads (text : List Char) (calls : List Call) : Prop where
  balanced : Balanced false text
  solid : ∃ c ∈ text, Text.isBlank c = false
  finds : ∀ {before rest : List Char}, before.head?.any joinsName = false → StopsName rest →
    FindsAll before text rest calls

theorem reads_var {name : List Char} (named : isParameterName name = true) :
    Reads ('$' :: name) [] := by
  have joins : ∀ c ∈ name, joinsName c = true := by
    intro c member
    unfold joinsName
    rcases chars_of_isParameterName named c member with nameChar | rfl
    · rw [nameChar]
      rfl
    · decide
  refine ⟨?_, ⟨'$', List.mem_cons_self, by decide⟩, ?_⟩
  · exact .plain rfl rfl rfl (fun _ => by decide)
      (balanced_of_plain fun c member => plain_of_class (joins c member) (by decide))
  · intro before rest _ _
    -- A qualified name follows the sign, but each of its characters joins the one before it.
    have sign : FindsAll before ['$'] (name ++ rest) [] :=
      findsAll_of_avoids (avoids_of_not_isNameStart (by decide))
    exact sign.append (findsAll_of_joined rfl joins)

theorem reads_numeral {digits : List Char} (number : isNumber digits = true) : Reads digits [] := by
  obtain ⟨hasDigit, all⟩ := Bool.and_eq_true_iff.1 number
  obtain ⟨d, member, digit⟩ := List.any_eq_true.1 hasDigit
  have inClass := List.all_eq_true.1 all
  refine ⟨?_, ⟨d, member, Text.not_blank_of_isNameChar (isNameChar_of_isDigit digit)⟩, ?_⟩
  · exact balanced_of_plain fun c member => plain_of_class (inClass c member) (by decide)
  · intro before rest _ stops
    refine findsAll_of_avoids (avoids_of_no_colon ?_ stops)
    intro colon
    exact absurd (inClass ':' colon) (by decide)

theorem Quoted.reads (q : Quoted) : Reads (q.quote :: (q.text.toList ++ [q.quote])) [] := by
  refine ⟨?_, ⟨q.quote, List.mem_cons_self, (of_isQuote q.delimiter).1⟩, ?_⟩
  · exact .literal q.delimiter q.closed (fun c absent => nomatch absent) .nil
  · intro before rest _ stops
    exact findsAll_of_avoids (avoids_of_no_colon (colon_not_mem_literal q.delimiter q.colon) stops)

/-- A call whose arguments can be read can be read, and its own head comes first. -/
theorem Callee.reads (callee : Callee) {es : List Expression}
    (each : ∀ e ∈ es, Reads e.text e.calls) :
    Reads ((callee.qualifier.toList ++ ':' :: callee.name.toList) ++
        (callee.gap.toList ++ '(' :: (separated (es.map Expression.text) ++ [')'])))
      (⟨callee.qualifier, callee.name, es.length⟩ :: es.flatMap Expression.calls) := by
  have blank : ∀ c ∈ callee.gap.toList, Text.isBlank c = true := List.all_eq_true.1 callee.blank
  have balanced : ∀ e ∈ es, Balanced false e.text := fun e member => (each e member).balanced
  refine ⟨?_, ⟨':', ?_, by decide⟩, ?_⟩
  · exact balanced_call callee.grammar callee.named blank (List.forall_mem_map.2 balanced)
  · exact List.mem_append_left _ (List.mem_append_right _ List.mem_cons_self)
  · intro before rest apart _
    exact findsAll_call (fun e member => (each e member).finds) apart callee.grammar callee.named
      blank balanced fun e member => (each e member).solid

/-- The heads found in the text of an expression are those of its calls. -/
theorem Expression.reads (e : Expression) : Reads e.text e.calls := by
  induction e using Expression.induction with
  | var name => exact reads_var name.property
  | numeral digits => exact reads_numeral digits.property
  | literal quoted => exact quoted.reads
  | call callee arguments ih =>
    rw [text, calls, texts_eq_map, callsAll_eq_flatMap]
    exact callee.reads ih

/-- The calls read from the text of an expression are its calls by known qualifiers, each before
those in its arguments. -/
theorem callSites_preorder (known : List String) (lineAfter : List Char → Nat) (e : Expression) :
    ∃ sites : List CallSite, (callSitesBy known lineAfter e.text).value = .ok sites ∧
      sites.map (fun s => (s.qualifier, s.name, s.arity)) =
        (e.calls.filter (·.qualifier ∈ known)).map fun c => (c.token, c.name, c.arity) := by
  have finds : FindsAll [] (e.text ++ []) [] e.calls := by
    rw [List.append_nil]
    exact e.reads.finds rfl fun c absent => nomatch absent
  rw [List.append_nil] at finds
  exact value_callSitesBy known lineAfter finds

/-- Two calls in a call by a qualifier of its own, with delimiters in a literal and a qualified
variable. -/
def application : Expression :=
  .call { qualifier := "xdmp", name := "apply", gap := " " }
    [.call { qualifier := "a", name := "f.g", gap := "" }
        [.var ⟨"p:v", by decide⟩, .literal { quote := '"', text := "), a b(" },
          .numeral ⟨"1.5e+3", by decide⟩],
      .call { qualifier := "local", name := "h", gap := "\n" } []]

theorem application_preorder :
    application.text = "xdmp:apply (a:f.g($p:v, \"), a b(\", 1.5e+3), local:h\n())".toList ∧
      ∃ sites : List CallSite,
        (callSitesBy ["a", "local", "p"] (fun _ => 1) application.text).value = .ok sites ∧
          sites.map (fun s => (s.qualifier, s.name, s.arity)) =
            [(some "a", "f.g", 3), (none, "h", 0)] := by
  obtain ⟨sites, read, same⟩ := callSites_preorder ["a", "local", "p"] (fun _ => 1) application
  exact ⟨by decide +kernel, sites, read, same.trans (by decide +kernel)⟩

end CallAtlas.Written
