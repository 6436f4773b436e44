import CallAtlas.QualifiedName
import CallAtlas.Source.CallSite

/-!
# Function declarations

`declare %annotation private function q:f($x as type) as type { body };` declares
a function. Annotations may also stand on lines of their own just above. A
declaration ends at the semicolon after its body; what starts inside an earlier
declaration is part of that one. Malformed declarations are skipped with a
notice, so that one of them never costs the rest of the module.
-/

namespace CallAtlas

/-- A parameter of a function. -/
structure Parameter where
  /-- The name without the dollar sign. -/
  name : String
  /-- The declared type, with blanks squeezed. -/
  typeText : Option String := none
deriving Repr, DecidableEq

/-- A function as a module declares it. -/
structure FunctionDecl where
  /-- The name without its qualifier. -/
  name : String
  qualifier : String
  line : Nat
  lineEnd : Nat
  signature : String
  body : String
  parameters : List Parameter := []
  isPrivate : Bool := false
  annotations : List String := []
  calls : List CallSite := []
deriving Repr, DecidableEq

namespace FunctionDecl

/-- The number of parameters. -/
def arity (f : FunctionDecl) : Nat :=
  f.parameters.length

/-- The name with the arity. -/
def qualifiedName (f : FunctionDecl) : String :=
  qualify f.name (some (Int.ofNat f.arity))

/-- The number of lines that the declaration takes. -/
def loc (f : FunctionDecl) : Int :=
  Int.ofNat f.lineEnd - Int.ofNat f.line + 1

end FunctionDecl

namespace Source

/-- Why a declaration is skipped. -/
inductive DeclarationFault
  | unbalancedParameters (qualifier name : List Char)
  | invalidParameter (text : List Char)
  | noBody (qualifier name : List Char)
  | unbalancedBody (qualifier name : List Char)
deriving Repr, DecidableEq

/-- The wording of a declaration fault. -/
def DeclarationFault.message : DeclarationFault → String
  | unbalancedParameters qualifier name =>
    "unbalanced parameter list for " ++ String.ofList (qualifier ++ ':' :: name)
  | invalidParameter text => "invalid parameter '" ++ String.ofList (Text.squeeze text) ++ "'"
  | noBody qualifier name => "no body for " ++ String.ofList (qualifier ++ ':' :: name)
  | unbalancedBody qualifier name =>
    "unbalanced braces in body of " ++ String.ofList (qualifier ++ ':' :: name)

/-! ## Annotations -/

/-- A character of an annotation name. -/
def isAnnotationChar (c : Char) : Bool :=
  Text.isNameChar c || c == ':'

/-- Reads the name of an annotation with its percent sign. -/
def annotationName : Scan (List Char) := do
  Scan.literal ['%']
  let name ← Scan.someRun isAnnotationChar
  return '%' :: name

/-- The annotations named anywhere in a text. -/
def annotationsIn (s : List Char) : List String :=
  (occurrences (fun _ => annotationName) s).map fun o => String.ofList o.value

/-- The annotations that make a function private. -/
def privateAnnotations : List String :=
  ["%private", "%xdmp:private"]

/-- The trimmed lines of a text, read backwards, from its end up as long as annotations start
them. -/
def annotationLines (s : List Char) : List (List Char) :=
  let line := Text.trim (s.takeWhile (· != '\n')).reverse
  if line.head? == some '%' then
    match h : s.dropWhile (· != '\n') with
    | [] => [line]
    | _ :: above =>
      have : above.length < s.length := by
        have := (List.dropWhile_sublist (p := (· != '\n')) (l := s)).length_le
        simp only [h, List.length_cons] at this
        omega
      line :: annotationLines above
  else []
termination_by s.length

/-- The annotations on the lines just above a declaration, given the text before it, read
backwards. Nothing but blanks may stand before the declaration on its own line. -/
def leadingAnnotations (before : List Char) : List String :=
  if (before.takeWhile (· != '\n')).all Text.isBlank then
    match before.dropWhile (· != '\n') with
    | [] => []
    | _ :: above => (annotationLines above).reverse.flatMap annotationsIn
  else []

/-! ## The head of a declaration -/

/-- The head of a declaration up to the parenthesis that opens its parameters. -/
structure Header where
  /-- The text between `declare` and what follows its annotations. -/
  annotationText : List Char
  /-- Whether the word `private` stands in the head. -/
  saysPrivate : Bool
  qualifier : List Char
  name : List Char
  /-- The text from the qualifier on. -/
  fromQualifier : List Char

/-- Reads the parenthesized part of an annotation. -/
def annotationArguments : Scan Unit := do
  Scan.literal ['(']
  discard (Scan.run (· != ')'))
  Scan.literal [')']

/-- What follows the annotations at the start of a text, and what follows the last name
among them, arguments and blanks aside: none if there is no annotation. -/
def skipAnnotations (lastName : Option (List Char × List Char)) (s : List Char) :
    List Char × Option (List Char × List Char) :=
  match annotationName s with
  | none => (s, lastName)
  | some (name, afterName) =>
    match (do discard (Scan.optional annotationArguments); Scan.blanks : Scan Unit) afterName with
    | none => (s, lastName)
    | some (_, rest) =>
      if _shorter : rest.length < s.length then skipAnnotations (some (name, afterName)) rest
      else (s, lastName)
termination_by s.length

/-- Reads the head of a declaration from after its annotations on. -/
def headerTail (annotationText : List Char) : Scan Header := do
  let saysPrivate ← Scan.succeeds (Scan.keyword "private" *> Scan.someBlanks)
  discard (Scan.optional
    ((Scan.keyword "updating" <|> Scan.keyword "sequential") *> Scan.someBlanks))
  Scan.keyword "function"
  Scan.someBlanks
  let fromQualifier ← get
  let qualifier ← Scan.name
  Scan.literal [':']
  let name ← Scan.name
  Scan.blanks
  Scan.literal ['(']
  return ⟨annotationText, saysPrivate, qualifier, name, fromQualifier⟩

/-- Reads the head of a declaration after giving back the end of the last annotation name:
the fewest characters that make the head complete, and never the first one. `kept` is what
the name keeps, read backwards, and `given` what it gives back with all that follows. -/
def giveBack (s : List Char) : (kept given : List Char) → Option (Header × List Char)
  | [], _ => none
  | [_], _ => none
  | [_, _], _ => none
  | c :: kept, given =>
    let text := s.take (s.length - (c :: given).length)
    headerTail text (c :: given) <|> giveBack s kept (c :: given)

/-- Reads the head of a declaration. An annotation name takes all it can, and gives back a
keyword at its end where the head is incomplete otherwise. -/
def header (before : Option Char) : Scan Header := do
  Scan.wordStart before
  Scan.keyword "declare"
  Scan.someBlanks
  fun s =>
    let (rest, lastName) := skipAnnotations none s
    headerTail (s.take (s.length - rest.length)) rest <|>
      match lastName with
      | none => none
      | some (name, afterName) => giveBack s name.reverse afterName

/-! ## Parameters -/

/-- Reads a whole parameter: `$name`, or `$name as type` where the type is all that follows. -/
def readParameter? (s : List Char) : Option Parameter := do
  let (name, rest) ← (do
    Scan.literal ['$']
    let first ← Scan.name
    let second ← Scan.optional (Scan.literal [':'] *> Scan.name)
    return match second with
      | some second => first ++ ':' :: second
      | none => first : Scan (List Char)) s
  if rest.isEmpty then return ⟨String.ofList name, none⟩
  let (_, typeText) ←
    (do Scan.someBlanks; Scan.keyword "as"; Scan.someBlanks : Scan Unit) rest
  if typeText.isEmpty then none
  else return ⟨String.ofList name, some (String.ofList (Text.squeeze typeText))⟩

/-- Reads the parameters between the parentheses of a declaration. -/
def readParameters (s : List Char) : Except DeclarationFault (List Parameter) :=
  (arguments s).mapM fun text =>
    match readParameter? text with
    | some parameter => .ok parameter
    | none => .error (.invalidParameter text)

/-! ## Whole declarations -/

/-- What a declaration consists of, as texts and offsets. -/
structure Outline where
  parameters : List Parameter
  signature : List Char
  /-- The text between the outermost braces. -/
  body : List Char
  /-- The offset of the body. -/
  bodyOffset : Nat
  /-- The offset of the semicolon that ends the declaration. -/
  endOffset : Nat

/-- The outline of the declaration with a given head in a text; none if it has no body. -/
def outline (content : List Char) (o : Occurrence Header) :
    Except DeclarationFault (Option Outline) := do
  let h := o.value
  let offsetOf := fun (rest : List Char) => content.length - rest.length
  match cutParenthesis? o.rest with
  | none => throw (.unbalancedParameters h.qualifier h.name)
  | some (inside, afterParameters) =>
    let parameters ← readParameters inside
    match afterParameters.dropWhile fun c => c != '{' && c != ';' with
    | [] => throw (.noBody h.qualifier h.name)
    | c :: afterBrace =>
      if c == ';' then return none
      match fromBodyEnd? 1 afterBrace with
      | none => throw (.unbalancedBody h.qualifier h.name)
      | some fromBrace =>
        let fromSemicolon := fromBrace.dropWhile (· != ';')
        return some
          { parameters := parameters
            signature := h.fromQualifier.take (h.fromQualifier.length - (c :: afterBrace).length)
            body := afterBrace.take (afterBrace.length - fromBrace.length)
            bodyOffset := offsetOf afterBrace
            endOffset := offsetOf fromSemicolon }

/-- The function that a head and its outline declare. -/
def functionOf (known : List String) (content : List Char) (o : Occurrence Header)
    (parts : Outline) : Checked NumeralError FunctionDecl := do
  let annotations := leadingAnnotations o.before ++ annotationsIn o.value.annotationText
  let calls ← callSites known (Text.lineOf content parts.bodyOffset) parts.body
  return {
    name := String.ofList o.value.name
    qualifier := String.ofList o.value.qualifier
    line := Text.lineAfter o.before
    lineEnd := Text.lineOf content parts.endOffset
    signature := String.ofList (Text.squeeze parts.signature)
    body := String.ofList (Text.trim parts.body)
    parameters := parts.parameters
    isPrivate := o.value.saysPrivate || annotations.any privateAnnotations.contains
    annotations := annotations
    calls := calls }

/-- The functions that a list of heads declares. A head before offset `from` lies inside an
earlier declaration, and of two declarations of one name and arity the first is kept. -/
def declarationsFrom (known : List String) (content : List Char) (path : String)
    (start : Nat) (seen : List String) :
    List (Occurrence Header) → Checked NumeralError (List FunctionDecl)
  | [] => pure []
  | o :: heads =>
    if o.offset < start then declarationsFrom known content path start seen heads
    else
      let line := Text.lineAfter o.before
      match outline content o with
      | .error fault => do
        Report.note
          (.functionSkipped (.malformed fault.message (some path) (some (Int.ofNat line))))
        declarationsFrom known content path start seen heads
      | .ok none => do
        Report.note (.functionExternal (String.ofList o.value.qualifier)
          (String.ofList o.value.name) path line)
        declarationsFrom known content path start seen heads
      | .ok (some parts) => do
        let function ← functionOf known content o parts
        let start := parts.endOffset + 1
        if seen.contains function.qualifiedName then
          Report.note
            (.functionRepeated function.qualifier function.qualifiedName path function.line)
          declarationsFrom known content path start seen heads
        else
          return function ::
            (← declarationsFrom known content path start (function.qualifiedName :: seen) heads)

/-- The functions of a module text, in source order. -/
def declarations (known : List String) (content : List Char) (path : String) :
    Checked NumeralError (List FunctionDecl) :=
  declarationsFrom known content path 0 [] (occurrences header content)

end Source
end CallAtlas
