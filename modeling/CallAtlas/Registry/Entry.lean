import CallAtlas.QualifiedName

/-!
# Entries of a registry

What a registry holds about modules, imports, functions and calls. Entries are
plain facts: they can come from source text or from a store, so what a store
does not keep is optional here. Calls stand on their own and name their caller.
-/

namespace CallAtlas

/-- A module, known by its path. -/
structure ModuleEntry where
  path : String
  qualifier : String
  uri : String
  lineCount : Int := 0
  functionCount : Int := 0
  isMain : Bool := false
  /-- Whether this is the node that stands for all vendor libraries. -/
  isExternal : Bool := false
deriving Repr, DecidableEq

/-- An import of the module at `owner`. -/
structure ImportEntry where
  owner : String
  qualifier : String
  uri : String
  location : Option String := none
deriving Repr, DecidableEq

/-- A function is told apart by the path of its module and its qualified name. -/
structure FunctionRef where
  path : String
  function : String
deriving Repr, DecidableEq

/-- A parameter of a registered function. -/
structure ParameterEntry where
  name : Option String
  typeText : Option String := none
deriving Repr, DecidableEq

/-- A function of the module at `owner`. -/
structure FunctionEntry where
  owner : String
  /-- The name without qualifier and arity. -/
  name : String
  arity : Int
  line : Option Int := none
  isPrivate : Bool := false
  /-- The number of lines of the declaration. -/
  loc : Option Int := none
  /-- How many lines the declaration is shorter than the longest one. -/
  invertedLoc : Option Int := none
  /-- The number of call sites in the body. -/
  callCount : Int := 0
  signature : Option String := none
  body : Option String := none
  parameters : List ParameterEntry := []
deriving Repr, DecidableEq

/-- The name with the arity. -/
def FunctionEntry.qualifiedName (f : FunctionEntry) : String :=
  qualify f.name (some f.arity)

/-- The reference of a function. -/
def FunctionEntry.ref (f : FunctionEntry) : FunctionRef :=
  ⟨f.owner, f.qualifiedName⟩

/-- A call site in a function of the module at `owner`. -/
structure CallEntry where
  owner : String
  /-- The qualified name of the function that holds the call site. -/
  caller : String
  /-- What stands for the called module; none for the module itself. -/
  token : Option String
  /-- The name of the called function without qualifier and arity. -/
  name : String
  arity : Option Int := none
  line : Option Int := none
deriving Repr, DecidableEq

/-- The name of the called function, with the arity if that is known. -/
def CallEntry.called (c : CallEntry) : String :=
  qualify c.name c.arity

/-- The function that holds the call site. -/
def CallEntry.callerRef (c : CallEntry) : FunctionRef :=
  ⟨c.owner, c.caller⟩

end CallAtlas
