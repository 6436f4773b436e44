import CallAtlas.Registry.Basic
import CallAtlas.Source.Module

/-!
# Filling a registry

Modules that were read one by one are merged into a registry in the order in
which they were read. The first module of a path stays, and so does the first
function of a name and arity; calls in a function that is not registered are not
registered either.

The inverted length of a function is the length of the longest function merged
with it, minus its own.
-/

namespace CallAtlas

namespace ParsedModule

/-- The entry of a module. -/
def entry (m : ParsedModule) : ModuleEntry :=
  { path := m.path
    qualifier := m.naming.qualifier
    uri := m.naming.uri
    lineCount := Int.ofNat m.lineCount
    functionCount := Int.ofNat m.functions.length
    isMain := m.naming.isMain }

/-- The entries of its imports. -/
def importEntries (m : ParsedModule) : List ImportEntry :=
  m.imports.values.map fun i => ⟨m.path, i.qualifier, i.uri, i.location⟩

/-- The functions that a registry keeps: the first of each name and arity. -/
def firstDeclarations (m : ParsedModule) : List FunctionDecl :=
  m.functions.foldl
    (fun kept f => if kept.any (·.qualifiedName == f.qualifiedName) then kept else kept ++ [f]) []

end ParsedModule

namespace FunctionDecl

/-- The entry of a function in a repository whose longest function has `longest` lines. -/
def entry (f : FunctionDecl) (path : String) (longest : Int) : FunctionEntry :=
  { owner := path
    name := f.name
    arity := Int.ofNat f.arity
    line := some (Int.ofNat f.line)
    isPrivate := f.isPrivate
    loc := some f.loc
    invertedLoc := some (longest - f.loc)
    callCount := Int.ofNat f.calls.length
    signature := some f.signature
    body := some f.body
    parameters := f.parameters.map fun p => ⟨some p.name, p.typeText⟩ }

/-- The entries of the calls in its body. -/
def callEntries (f : FunctionDecl) (path : String) : List CallEntry :=
  f.calls.map fun c =>
    { owner := path
      caller := f.qualifiedName
      token := c.qualifier
      name := c.name
      arity := some (Int.ofNat c.arity)
      line := some (Int.ofNat c.line) }

end FunctionDecl

namespace Registry

/-- The modules that a registry takes from a list: those whose path it does not know yet, and
of one path the first. `taken` are the paths of those already taken from the list. -/
def unregistered (r : Registry) (taken : List String) :
    List ParsedModule → Report (List ParsedModule)
  | [] => pure []
  | m :: ms => do
    if taken.contains m.path || r.knows m.path then
      Report.note (.moduleKept m.path)
      r.unregistered taken ms
    else
      return m :: (← r.unregistered (m.path :: taken) ms)

/-- The largest number of lines of a function that stays registered, zero if there is none. -/
def longestLoc (ms : List ParsedModule) : Int :=
  ((ms.flatMap ParsedModule.firstDeclarations).map FunctionDecl.loc).max?.getD 0

/-- Registers a function and the calls in its body. -/
def mergeFunction (path : String) (longest : Int) (r : Registry) (f : FunctionDecl) :
    Report Registry := do
  let (fresh, r) ← r.addFunction (f.entry path longest)
  return if fresh then (f.callEntries path).foldl addCall r else r

/-- Registers a module with everything in it. -/
def mergeModule (longest : Int) (r : Registry) (m : ParsedModule) : Report Registry := do
  let r ← r.addModule m.entry
  let r := m.importEntries.foldl addImport r
  m.functions.foldlM (mergeFunction m.path longest) r

/-- Merges modules into a registry. -/
def merge (r : Registry) (ms : List ParsedModule) : Report Registry := do
  let kept ← r.unregistered [] ms
  let merged ← kept.foldlM (mergeModule (longestLoc kept)) r
  Report.note (.registryBuilt merged.size merged.allFunctions.length merged.calls.length)
  return merged

end Registry
end CallAtlas
