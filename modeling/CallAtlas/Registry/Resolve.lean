import CallAtlas.Location
import CallAtlas.Registry.Basic

/-!
# Resolution of calls

A call names its target module by a token: a qualifier, a path or a relative
path. Rules map the token to a module path, and the first rule that applies
decides:

1. no token: the calling module;
2. a vendor location: the external node;
3. the path of a known module: that module;
4. the calling module's own qualifier: the calling module;
5. a relative path: the module there, which must be known;
6. the qualifier of an import: the location of the import, or the module with its
   URI if it gives no location;
7. the qualifier of any module: that module.

A call whose arity is known reaches the function with that arity; otherwise it
reaches every function of the name. If there is none it still reaches the module.
-/

namespace CallAtlas

/-- A call that reaches a function. -/
structure Edge where
  source : FunctionRef
  target : FunctionRef
  arity : Option Int
deriving Repr, DecidableEq

namespace Registry

/-- A location read in the directory of a module. -/
def relativeTo (path location : String) : String :=
  String.ofList (Location.resolveIn path.toList location.toList)

/-- The module that an import leads to. A location is taken as it is, known or not. -/
def importTarget (r : Registry) (caller : String) (i : ImportEntry) : Report (Option String) :=
  match i.location with
  | none | some "" => pure (r.pathOfUri? i.uri)
  | some location =>
    if r.isVendor location then pure (some r.external.path)
    else if Location.isRelative location.toList then pure (some (relativeTo caller location))
    else do
      if !r.knows location then Report.note (.locationUnknown location caller)
      return some location

/-- The module that a token leads to by the imports of the caller, or else by the qualifiers
of all modules. -/
def resolveQualifier (r : Registry) (caller token : String) : Checked AnalysisError String := do
  let imported ← match (r.importsOf caller).get? token with
    | some i => r.importTarget caller i
    | none => pure (none : Option String)
  match imported.or (r.pathOfQualifier? token) with
  | some path => return path
  | none => throw (.unresolved caller (some token) AnalysisError.noMatch)

/-- The path of the module that a token stands for in a calling module. -/
def resolveModule (r : Registry) (caller : String) :
    Option String → Checked AnalysisError String
  | none => pure caller
  | some token =>
    if r.isVendor token then pure r.external.path
    else if r.knows token then pure token
    else if (r.module? caller).any (·.qualifier == token) then pure caller
    else if Location.isRelative token.toList then
      let target := relativeTo caller token
      if r.knows target then pure target
      else throw (.unresolved caller (some token)
        ("relative path " ++ target ++ " is not a known module"))
    else r.resolveQualifier caller token

/-- The functions of a module that a call can mean. -/
def candidates (r : Registry) (path : String) (c : CallEntry) : List FunctionEntry :=
  match c.arity with
  | none => r.functionsNamed path c.name
  | some arity => (r.functionsNamed path c.name).filter (·.arity == arity)

/-- The edges of a call into a module: one for each candidate, or one for the name alone. -/
def edgesInto (r : Registry) (path : String) (c : CallEntry) : List Edge :=
  match r.candidates path c with
  | [] => [⟨c.callerRef, ⟨path, c.called⟩, c.arity⟩]
  | fs => fs.map fun f => ⟨c.callerRef, ⟨path, f.qualifiedName⟩, c.arity⟩

/-- The edges of a call. A call whose token leads nowhere is dropped with a notice. -/
def resolve (r : Registry) (c : CallEntry) : Report (List Edge) := do
  match ← (r.resolveModule c.owner c.token).run with
  | .ok path => return r.edgesInto path c
  | .error cause =>
    Report.note (.callDropped c.called c.caller cause)
    return []

/-- The edges of many calls, in the order of the calls. -/
def resolveAll (r : Registry) (calls : List CallEntry) : Report (List Edge) := do
  return (← calls.mapM r.resolve).flatten

end Registry
end CallAtlas
