import CallAtlas.Proofs.ModuleGraph
import CallAtlas.Source.Module
import CallAtlas.Text.Lines
import Mathlib.Data.List.Chain
import Mathlib.Data.List.Nodup

/-!
# Canonical modules

A canonical module is given by data: its path, its qualifier, its imports, and functions whose
bodies are trees of calls. This module says how such a module is written as a text, which data the
text cannot be mistaken for (`Fits`), and what the module graph of a repository of
canonical modules has to be (`Shows`). The last two do not mention how texts are read.
-/

namespace CallAtlas.Canonical

/-! ## Data -/

/-- A tree of calls. Its leaves are variables, numerals and string literals. -/
inductive Expr
  | var (name : String)
  | numeral (digits : String)
  | literal (quote : Char) (text : String)
  | call (qualifier name : String) (arguments : List Expr)

/-- One call in a tree. -/
structure Call where
  qualifier : String
  name : String
  /-- The number of arguments. -/
  arity : Nat
deriving Repr, DecidableEq

mutual

/-- The calls in a tree, each before those in its arguments. -/
def Expr.calls : Expr → List Call
  | .var _ => []
  | .numeral _ => []
  | .literal _ _ => []
  | .call qualifier name arguments =>
    ⟨qualifier, name, arguments.length⟩ :: Expr.callsAll arguments

/-- The calls in a list of trees. -/
def Expr.callsAll : List Expr → List Call
  | [] => []
  | e :: es => e.calls ++ Expr.callsAll es

end

/-- A function. -/
structure Definition where
  name : String
  /-- The names of its parameters, without the dollar sign. -/
  parameters : List String
  body : Expr

/-- An import of the module at a path. -/
structure Import where
  qualifier : String
  uri : String
  path : String

/-- A library module. -/
structure Module where
  path : String
  qualifier : String
  uri : String
  imports : List Import
  functions : List Definition

/-- The qualifiers by which a module may call functions. -/
def Module.known (m : Module) : List String :=
  m.qualifier :: Source.localQualifier :: m.imports.map Import.qualifier

/-- The calls in all functions of a module. -/
def Module.calls (m : Module) : List Call :=
  m.functions.flatMap fun f => f.body.calls

/-! ## Texts -/

/-- Texts with a comma and a space between neighbours. -/
def separated : List (List Char) → List Char
  | [] => []
  | x :: xs => x ++ xs.flatMap fun y => ',' :: ' ' :: y

mutual

/-- A tree as a text. -/
def Expr.render : Expr → List Char
  | .var name => '$' :: name.toList
  | .numeral digits => digits.toList
  | .literal quote text => quote :: (text.toList ++ [quote])
  | .call qualifier name arguments =>
    (qualifier.toList ++ ':' :: name.toList) ++
      ('(' :: (separated (Expr.renderAll arguments) ++ [')']))

/-- The texts of a list of trees. -/
def Expr.renderAll : List Expr → List (List Char)
  | [] => []
  | e :: es => e.render :: Expr.renderAll es

end

/-- The head of a function of a module with a qualifier. -/
def Definition.head (qualifier : String) (f : Definition) : List Char :=
  "declare function ".toList ++ (qualifier.toList ++ ':' :: (f.name.toList ++ ['(']))

/-- The parameters and the body of a function. -/
def Definition.tail (f : Definition) : List Char :=
  separated (f.parameters.map fun x => '$' :: x.toList) ++ (") \x7b ".toList ++
    (f.body.render ++ " \x7d;".toList))

/-- An import as a statement. -/
def Import.statement (i : Import) : List Char :=
  "import module namespace ".toList ++ (i.qualifier.toList ++ (" = \"".toList ++ (i.uri.toList ++
    ("\" at \"".toList ++ (i.path.toList ++ "\";".toList)))))

/-- The statement that names a module. -/
def Module.statement (m : Module) : List Char :=
  "module namespace ".toList ++ (m.qualifier.toList ++ (" = \"".toList ++ (m.uri.toList ++
    "\";".toList)))

/-- Imports, a line each. -/
def renderImports (imports : List Import) : List Char :=
  imports.flatMap fun i => i.statement ++ ['\n']

/-- Functions of a module with a qualifier, a line each. -/
def renderFunctions (qualifier : String) (functions : List Definition) : List Char :=
  functions.flatMap fun f => f.head qualifier ++ (f.tail ++ ['\n'])

/-- A module as a text: its name, its imports and its functions. -/
def Module.render (m : Module) : List Char :=
  m.statement ++ '\n' :: (renderImports m.imports ++ renderFunctions m.qualifier m.functions)

/-! ## Conditions -/

/-- A name, of a variable say. -/
def isName (s : List Char) : Bool :=
  !s.isEmpty && s.all Text.isNameChar

/-- A numeral: a digit and what may follow one. -/
def isNumeral : List Char → Bool
  | [] => false
  | c :: s => c.isDigit && s.all Text.isNameChar

/-- A qualifier that can stand at a call. -/
def isQualifier : List Char → Bool
  | [] => false
  | c :: s => Source.isNameStart c && s.all Text.isNameChar

/-- Whether each point of a text is followed by a character of function names, and all other
characters are such characters. -/
def isFunctionTail : List Char → Bool
  | [] => true
  | c :: s =>
    (Source.isFunctionChar c || (c == '.' && s.head?.any Source.isFunctionChar)) &&
      isFunctionTail s

/-- A name of a function that can stand at a call. -/
def isFunctionName : List Char → Bool
  | [] => false
  | c :: s => Source.isNameStart c && isFunctionTail s

/-- Whether a text has a word that starts after `before`: neither of its neighbours is a word
character. -/
def hasWord (word : List Char) (before : Option Char) : List Char → Bool
  | [] => false
  | c :: s =>
    (!before.any Text.isWord && word.isPrefixOf (c :: s) &&
        !((c :: s).drop word.length).head?.any Text.isWord) ||
      hasWord word (some c) s

/-- The words with which statements start. -/
def statementWords : List (List Char) :=
  ["import".toList, "declare".toList]

/-- A text without the words with which statements start. -/
def IsWordless (s : List Char) : Prop :=
  ∀ word ∈ statementWords, hasWord word none s = false

instance (s : List Char) : Decidable (IsWordless s) :=
  inferInstanceAs (Decidable (∀ word ∈ statementWords, hasWord word none s = false))

/-- A text in which no comment starts. -/
def IsUncommented (s : List Char) : Prop :=
  s.IsChain fun a b => ¬(a = '(' ∧ b = ':')

instance (s : List Char) : Decidable (IsUncommented s) :=
  inferInstanceAs (Decidable (s.IsChain fun a b => ¬(a = '(' ∧ b = ':')))

/-- A URI or a path that can stand between double quotes in a statement. -/
structure IsAddress (s : List Char) : Prop where
  quote : '"' ∉ s
  semicolon : ';' ∉ s
  comment : IsUncommented s
  words : IsWordless s

instance (s : List Char) : Decidable (IsAddress s) :=
  decidable_of_iff ('"' ∉ s ∧ ';' ∉ s ∧ IsUncommented s ∧ IsWordless s)
    ⟨fun ⟨quote, semicolon, comment, words⟩ => ⟨quote, semicolon, comment, words⟩,
      fun address => ⟨address.quote, address.semicolon, address.comment, address.words⟩⟩

/-- A tree whose names are those of calls, by known qualifiers, and whose literals can be told
from the text around them. -/
inductive Expr.Fits (known : List String) : Expr → Prop
  | var {name : String} (chars : isName name.toList = true) : Expr.Fits known (.var name)
  | numeral {digits : String} (chars : isNumeral digits.toList = true) :
    Expr.Fits known (.numeral digits)
  | literal {quote : Char} {text : String} (delimiter : Source.isQuote quote = true)
    (closed : quote ∉ text.toList) (colon : ':' ∉ text.toList) (words : IsWordless text.toList) :
    Expr.Fits known (.literal quote text)
  | call {qualifier name : String} {arguments : List Expr} (isKnown : qualifier ∈ known)
    (grammar : isQualifier qualifier.toList = true) (named : isFunctionName name.toList = true)
    (fits : ∀ e ∈ arguments, Expr.Fits known e) : Expr.Fits known (.call qualifier name arguments)

mutual

/-- Decides whether a tree fits. -/
def Expr.checks (known : List String) : Expr → Bool
  | .var name => isName name.toList
  | .numeral digits => isNumeral digits.toList
  | .literal quote text =>
    decide (Source.isQuote quote = true ∧ quote ∉ text.toList ∧ ':' ∉ text.toList ∧
      IsWordless text.toList)
  | .call qualifier name arguments =>
    decide (qualifier ∈ known ∧ isQualifier qualifier.toList = true ∧
      isFunctionName name.toList = true) && Expr.checksAll known arguments

/-- Decides whether all trees of a list fit. -/
def Expr.checksAll (known : List String) : List Expr → Bool
  | [] => true
  | e :: es => e.checks known && Expr.checksAll known es

end

mutual

theorem Expr.fits_of_checks {known : List String} :
    ∀ e : Expr, e.checks known = true → e.Fits known
  | .var _, checked => .var checked
  | .numeral _, checked => .numeral checked
  | .literal _ _, checked => by
    obtain ⟨delimiter, closed, colon, words⟩ := of_decide_eq_true checked
    exact .literal delimiter closed colon words
  | .call _ _ arguments, checked => by
    obtain ⟨own, all⟩ := Bool.and_eq_true_iff.1 checked
    obtain ⟨isKnown, grammar, named⟩ := of_decide_eq_true own
    exact .call isKnown grammar named (Expr.fits_of_checksAll arguments all)

theorem Expr.fits_of_checksAll {known : List String} :
    ∀ es : List Expr, Expr.checksAll known es = true → ∀ e ∈ es, e.Fits known
  | [], _, _, member => nomatch member
  | first :: es, checked, e, member => by
    obtain ⟨own, all⟩ := Bool.and_eq_true_iff.1 checked
    rcases List.mem_cons.1 member with same | later
    · rw [same]
      exact Expr.fits_of_checks first own
    · exact Expr.fits_of_checksAll es all e later

end

theorem Expr.checksAll_of_checks {known : List String} {es : List Expr}
    (checked : ∀ e ∈ es, e.checks known = true) : Expr.checksAll known es = true := by
  induction es with
  | nil => rfl
  | cons e es ih =>
    refine Bool.and_eq_true_iff.2 ⟨checked e List.mem_cons_self, ih ?_⟩
    exact fun later member => checked later (List.mem_cons_of_mem _ member)

theorem Expr.checks_iff {known : List String} {e : Expr} :
    e.checks known = true ↔ e.Fits known := by
  refine ⟨e.fits_of_checks, ?_⟩
  intro fits
  induction fits with
  | var chars => exact chars
  | numeral chars => exact chars
  | literal delimiter closed colon words => exact decide_eq_true ⟨delimiter, closed, colon, words⟩
  | call isKnown grammar named _ ih =>
    exact Bool.and_eq_true_iff.2
      ⟨decide_eq_true ⟨isKnown, grammar, named⟩, Expr.checksAll_of_checks ih⟩

instance (known : List String) (e : Expr) : Decidable (e.Fits known) :=
  decidable_of_iff _ Expr.checks_iff

/-- A function that can be written in a module with known qualifiers. -/
structure Definition.Fits (known : List String) (f : Definition) : Prop where
  name : isFunctionName f.name.toList = true
  parameters : ∀ x ∈ f.parameters, isName x.toList = true
  body : f.body.Fits known

instance (known : List String) (f : Definition) : Decidable (f.Fits known) :=
  decidable_of_iff (isFunctionName f.name.toList = true ∧
      (∀ x ∈ f.parameters, isName x.toList = true) ∧ f.body.Fits known)
    ⟨fun ⟨name, parameters, body⟩ => ⟨name, parameters, body⟩,
      fun fits => ⟨fits.name, fits.parameters, fits.body⟩⟩

/-- An import that can be written, of a module of a repository. -/
structure Import.Fits (paths : List String) (i : Import) : Prop where
  qualifier : isQualifier i.qualifier.toList = true
  uri : IsAddress i.uri.toList
  path : IsAddress i.path.toList
  target : i.path ∈ paths

instance (paths : List String) (i : Import) : Decidable (i.Fits paths) :=
  decidable_of_iff (isQualifier i.qualifier.toList = true ∧ IsAddress i.uri.toList ∧
      IsAddress i.path.toList ∧ i.path ∈ paths)
    ⟨fun ⟨qualifier, uri, path, target⟩ => ⟨qualifier, uri, path, target⟩,
      fun fits => ⟨fits.qualifier, fits.uri, fits.path, fits.target⟩⟩

/-- A module that can be written, in a repository with some paths. Its qualifiers are distinct, and
none is the name of the external node or a vendor location; no two functions have the same name
and arity. -/
structure Module.Fits (scheme : VendorScheme) (paths : List String) (m : Module) : Prop where
  path : m.path.toList.head? = some '/'
  own : scheme.covers m.path = false
  qualifier : isQualifier m.qualifier.toList = true
  uri : IsAddress m.uri.toList
  imports : ∀ i ∈ m.imports, i.Fits paths
  known : m.known.Nodup
  apart : ∀ q ∈ m.known, q ≠ scheme.externalPath ∧ scheme.covers q = false
  functions : ∀ f ∈ m.functions, f.Fits m.known
  signatures : (m.functions.map fun f => (f.name, f.parameters.length)).Nodup

/-- A repository whose modules have distinct paths, other than that of the external node, and can
be written. -/
structure Fits (scheme : VendorScheme) (repository : List Module) : Prop where
  paths : (repository.map Module.path).Nodup
  external : scheme.externalPath ∉ repository.map Module.path
  modules : ∀ m ∈ repository, m.Fits scheme (repository.map Module.path)

/-! ## The module graph -/

/-- The path of the module that a qualifier stands for in a module. -/
def Module.target? (m : Module) (qualifier : String) : Option String :=
  if qualifier = m.qualifier ∨ qualifier = Source.localQualifier then some m.path
  else (m.imports.find? (·.qualifier == qualifier)).map Import.path

/-- How many calls in a module go to a function of the module at a path. -/
def Module.weight (m : Module) (target name : String) (arity : Nat) : Nat :=
  m.calls.countP fun c => m.target? c.qualifier == some target && c.name == name && c.arity == arity

/-- Whether a module is an end of some call. -/
def touches (repository : List Module) (path : String) : Bool :=
  repository.any fun m => m.calls.any fun c => m.path == path || m.target? c.qualifier == some path

/-- What a registry knows of a module itself. -/
def Module.entry (m : Module) : ModuleEntry :=
  { path := m.path
    qualifier := m.qualifier
    uri := m.uri
    lineCount := Int.ofNat (Text.lines m.render).length
    functionCount := Int.ofNat m.functions.length }

/-- A graph shows a repository: its nodes are the modules in their order and the external node,
numbered from one, those left out that are an end of no call if only connected ones are wanted;
and there is one edge for each function that a module calls, which counts the calls. -/
structure Shows (scheme : VendorScheme) (connectedOnly : Bool) (repository : List Module)
    (g : ModuleGraph) : Prop where
  nodes : g.nodes = ModuleGraph.numbered
    ((repository.map Module.entry ++ [scheme.external]).filter fun entry =>
      !connectedOnly || touches repository entry.path)
  edges : ∀ m ∈ repository, ∀ target name arity count,
    (∃ e ∈ g.edges, g.route? e = some ⟨m.path, target, qualify name (some (Int.ofNat arity))⟩ ∧
      e.callCount = Int.ofNat count) ↔ 0 < count ∧ m.weight target name arity = count
  ends : ∀ e ∈ g.edges, ∃ m ∈ repository, ∃ target name arity,
    g.route? e = some ⟨m.path, target, qualify name (some (Int.ofNat arity))⟩
  distinct : (g.edges.map g.route?).Nodup

end CallAtlas.Canonical
