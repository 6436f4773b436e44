import CallAtlas.Notice
import CallAtlas.Registry.Entry
import CallAtlas.Table

/-!
# The registry

A registry knows every module of a repository with its imports, functions and
calls, and finds them by path, qualifier, URI, name and caller. Vendor libraries
are not analysed: one external node stands for all of them.

The first function of a name and arity stays. A module, an import, a qualifier or
a URI that comes again replaces what was there.
-/

namespace CallAtlas

/-- What a registry takes for granted about vendor libraries. -/
structure VendorScheme where
  /-- The path of the external node. -/
  externalPath : String := "MarkLogic-Library"
  /-- The qualifier of the external node. -/
  externalQualifier : String := "ml"
  /-- Locations that start so belong to vendor libraries; the empty text matches none. -/
  vendorRoot : String := "/MarkLogic/"
deriving Repr, DecidableEq

/-- The external node of a scheme. -/
def VendorScheme.external (v : VendorScheme) : ModuleEntry :=
  { path := v.externalPath
    qualifier := v.externalQualifier
    uri := "urn:xqy-external:" ++ v.externalPath
    isExternal := true }

/-- Whether a location belongs to a vendor library. -/
def VendorScheme.covers (v : VendorScheme) (location : String) : Bool :=
  location != "" && v.vendorRoot != "" && v.vendorRoot.toList.isPrefixOf location.toList

/-- Modules, imports, functions and calls, with the ways to find them. -/
structure Registry where
  scheme : VendorScheme := {}
  modules : Table String ModuleEntry := ⟨[]⟩
  /-- The path of the module that last declared a qualifier. -/
  pathsByQualifier : Table String String := ⟨[]⟩
  /-- The path of the module that last declared a URI. -/
  pathsByUri : Table String String := ⟨[]⟩
  /-- The imports of each module by qualifier. -/
  imports : Table String (Table String ImportEntry) := ⟨[]⟩
  /-- The functions of each module by qualified name. -/
  functions : Table String (Table String FunctionEntry) := ⟨[]⟩
  /-- The functions of one module that share a name, by path and name. -/
  overloads : Table (String × String) (List FunctionEntry) := ⟨[]⟩
  calls : List CallEntry := []
  callsByCaller : Table FunctionRef (List CallEntry) := ⟨[]⟩
deriving Repr

namespace Registry

/-! ## Look-ups -/

/-- The external node. -/
def external (r : Registry) : ModuleEntry :=
  r.scheme.external

/-- The module at a path; the external node answers for its own. -/
def module? (r : Registry) (path : String) : Option ModuleEntry :=
  if path = r.external.path then some r.external else r.modules.get? path

/-- Whether there is a module at a path, the external node included. -/
def knows (r : Registry) (path : String) : Bool :=
  r.modules.contains path || path == r.external.path

/-- The path of the module that last declared a qualifier. -/
def pathOfQualifier? (r : Registry) (qualifier : String) : Option String :=
  r.pathsByQualifier.get? qualifier

/-- The path of the module that last declared a URI. -/
def pathOfUri? (r : Registry) (uri : String) : Option String :=
  r.pathsByUri.get? uri

/-- Whether a location belongs to a vendor library. -/
def isVendor (r : Registry) (location : String) : Bool :=
  r.scheme.covers location

/-- The imports of a module by qualifier. -/
def importsOf (r : Registry) (path : String) : Table String ImportEntry :=
  (r.imports.get? path).getD .empty

/-- The functions of a module by qualified name. -/
def functionTable (r : Registry) (path : String) : Table String FunctionEntry :=
  (r.functions.get? path).getD .empty

/-- A function of a module by its qualified name. -/
def function? (r : Registry) (path qualified : String) : Option FunctionEntry :=
  (r.functionTable path).get? qualified

/-- The functions of a module that share a name, whatever their arity. -/
def functionsNamed (r : Registry) (path name : String) : List FunctionEntry :=
  (r.overloads.get? (path, name)).getD []

/-- The functions of a module. -/
def functionsOf (r : Registry) (path : String) : List FunctionEntry :=
  (r.functionTable path).values

/-- The call sites in the body of one function. -/
def callsOf (r : Registry) (caller : FunctionRef) : List CallEntry :=
  (r.callsByCaller.get? caller).getD []

/-- All modules in the order of their registration, the external node last. -/
def allModules (r : Registry) : List ModuleEntry :=
  r.modules.values ++ [r.external]

/-- All functions, module by module. -/
def allFunctions (r : Registry) : List FunctionEntry :=
  r.functions.values.flatMap Table.values

/-- The number of modules, the external node not counted. -/
def size (r : Registry) : Nat :=
  r.modules.size

/-! ## Additions -/

/-- Reports that a qualifier moves to another module. -/
def noteMove (r : Registry) (m : ModuleEntry) : Report Unit :=
  match r.pathOfQualifier? m.qualifier with
  | some previous =>
    if m.qualifier != "" && previous != "" && previous != m.path then
      Report.note (.qualifierMoved m.qualifier previous m.path)
    else pure ()
  | none => pure ()

/-- An index with a path put under a name, unless the name is empty. -/
def indexed (index : Table String String) (name path : String) : Table String String :=
  if name = "" then index else index.put name path

/-- Registers a module. It takes its qualifier and its URI over from other modules. -/
def addModule (r : Registry) (m : ModuleEntry) : Report Registry := do
  if r.modules.contains m.path then Report.note (.moduleReplaced m.path)
  r.noteMove m
  return { r with
    modules := r.modules.put m.path m
    pathsByQualifier := indexed r.pathsByQualifier m.qualifier m.path
    pathsByUri := indexed r.pathsByUri m.uri m.path }

/-- Registers an import. It replaces one with the same qualifier. -/
def addImport (r : Registry) (i : ImportEntry) : Registry :=
  { r with imports := r.imports.update i.owner .empty (·.put i.qualifier i) }

/-- Registers a function, unless its module has one of that name and arity. The answer says
whether it was registered. -/
def addFunction (r : Registry) (f : FunctionEntry) : Report (Bool × Registry) := do
  if (r.functionTable f.owner).contains f.qualifiedName then
    Report.note (.functionKept f.qualifiedName f.owner)
    return (false, r)
  else
    return (true, { r with
      functions := r.functions.update f.owner .empty (·.put f.qualifiedName f)
      overloads := r.overloads.update (f.owner, f.name) [] (· ++ [f]) })

/-- Registers a call. -/
def addCall (r : Registry) (c : CallEntry) : Registry :=
  { r with
    calls := r.calls ++ [c]
    callsByCaller := r.callsByCaller.update c.callerRef [] (· ++ [c]) }

end Registry
end CallAtlas
