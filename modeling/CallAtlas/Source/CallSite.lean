import CallAtlas.Notice
import CallAtlas.Numeral
import CallAtlas.Source.Balanced
import CallAtlas.Source.Scan
import CallAtlas.Text.Lines

/-!
# Call sites

A call is written `q:f(…)`, or `q:f#n` where a function is named without being
called. Only calls whose qualifier the module knows are recorded; all others go
to built-in or vendor functions. `$q:v` is a variable.
-/

namespace CallAtlas

/-- One call in a function body, before its target is known. -/
structure CallSite where
  /-- The qualifier as written; none for calls within the module by `local`. -/
  qualifier : Option String
  /-- The function without its qualifier. -/
  name : String
  /-- The number of arguments. -/
  arity : Nat
  line : Nat
deriving Repr, DecidableEq

namespace Source

/-- The qualifier by which a module calls its own functions. -/
def localQualifier : String := "local"

/-- The first character of a qualifier or function name at a call site. -/
def isNameStart (c : Char) : Bool :=
  c.isAlpha || c == '_'

/-- A character after which no call starts: it continues a name or makes a variable of it. -/
def joinsName (c : Char) : Bool :=
  Text.isNameChar c || c == '$' || c == ':'

/-- A character of a function name other than a point. -/
def isFunctionChar (c : Char) : Bool :=
  Text.isWord c || c == '-'

/-- Reads the rest of a function name. A point belongs to it only if the name goes on. -/
def functionTail : Scan (List Char)
  | [] => some ([], [])
  | c :: s =>
    if isFunctionChar c || (c == '.' && s.head?.any isFunctionChar) then
      (functionTail s).map fun read => (c :: read.1, read.2)
    else some ([], c :: s)

/-- The head of a call: the qualifier, the function name and an explicit arity. -/
structure CallHead where
  qualifier : List Char
  name : List Char
  arity : Option (List Char)
deriving Repr

/-- Reads the head of a call. -/
def callHead (before : Option Char) : Scan CallHead := do
  if before.any joinsName then failure
  let first ← Scan.char isNameStart
  let more ← Scan.run Text.isNameChar
  Scan.literal [':']
  let start ← Scan.char isNameStart
  let tail ← functionTail
  let arity ← Scan.optional (Scan.literal ['#'] *> Scan.someRun Text.isDecimal)
  return ⟨first :: more, start :: tail, arity⟩

/-- The arity of a call, from its head and what follows it: the explicit one, or the number
of arguments in the parentheses. Without either it is no call. -/
def arityOf (head : CallHead) (rest : List Char) : Checked NumeralError (Option Nat) :=
  match head.arity with
  | some digits =>
    match Numeral.readInt digits with
    | .ok n => pure (some n.toNat)
    | .error e => throw e
  | none =>
    match Text.dropBlanks rest with
    | '(' :: s =>
      match cutParenthesis? s with
      | some (inside, _) => pure (some (countArguments inside))
      | none => do
        Report.note (.callUnclosed (String.ofList head.qualifier) (String.ofList head.name))
        return none
    | _ => pure none

/-- The call of one head found in a body. `lineAfter` tells the line of a call from the text
before it, read backwards. -/
def callSiteAt (known : List String) (lineAfter : List Char → Nat) (o : Occurrence CallHead) :
    Checked NumeralError (Option CallSite) := do
  let qualifier := String.ofList o.value.qualifier
  if known.contains qualifier then
    return (← arityOf o.value o.rest).map fun arity =>
      { qualifier := if qualifier == localQualifier then none else some qualifier
        name := String.ofList o.value.name
        arity := arity
        line := lineAfter o.before }
  else return none

/-- The calls in a body by known qualifiers, in source order. -/
def callSitesBy (known : List String) (lineAfter : List Char → Nat) (body : List Char) :
    Checked NumeralError (List CallSite) := do
  return (← (occurrences callHead body).mapM (callSiteAt known lineAfter)).filterMap id

/-- The calls in a body whose first line has a number. -/
def callSites (known : List String) (firstLine : Nat) (body : List Char) :
    Checked NumeralError (List CallSite) :=
  callSitesBy known (fun before => firstLine + before.count '\n') body

end Source
end CallAtlas
