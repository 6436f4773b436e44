import CallAtlas.Server.Address
import CallAtlas.Server.Parameter

/-!
# Requests to a server

A request names a method, an address and parameters. The address leads to an endpoint,
the endpoint has one method, and its parameters make an operation. A request is refused
at the first of these three that does not fit.
-/

namespace CallAtlas.Server

/-- A request. -/
structure Request where
  method : String
  address : String
  parameters : Parameters := []
deriving Repr, DecidableEq

/-- What a request asks for. -/
inductive Operation
  /-- To analyse another folder from now on. -/
  | choose (folder : String)
  /-- To analyse the folder. -/
  | analyse
  /-- How the server is set up and what it did last. -/
  | status
  | modules (fragment : String)
  | functions (modules : List String)
  | stack (path function form : String) (bound : Option Int)
  | graph (connectedOnly : Bool)
deriving Repr, DecidableEq

/-- Why a request is refused. -/
inductive Refusal
  | pathUnknown
  | methodUnfit
  | invalid (issues : List Issue)
deriving Repr, DecidableEq

/-- The operations that are asked for at one path. -/
inductive Endpoint
  | base
  | init
  | status
  | modules
  | functions
  | stack
  | graph
deriving Repr, DecidableEq

namespace Endpoint

/-- All endpoints. -/
def all : List Endpoint :=
  [base, init, status, modules, functions, stack, graph]

/-- The last part of the path of an endpoint. -/
def name : Endpoint → String
  | base => "base"
  | init => "init"
  | status => "status"
  | modules => "modules"
  | functions => "functions"
  | stack => "stack"
  | graph => "graph"

/-- The path of an endpoint. -/
def path (e : Endpoint) : String :=
  "/xqanalyse/" ++ e.name

/-- The method of an endpoint. What changes the server is put, what reads it is got. -/
def method : Endpoint → String
  | base | init => "PUT"
  | _ => "GET"

/-- The operation that parameters make. -/
def operation (e : Endpoint) (ps : Parameters) : Validated Operation :=
  match e with
  | base => (required ps "folder").map .choose
  | init => .ok .analyse
  | status => .ok .status
  | modules => .ok (.modules ((ps.value? "match").getD ""))
  | functions => .ok (.functions (ps.values "module"))
  | stack =>
    (Validated.both (required ps "module")
      (Validated.both (required ps "function") (optionalInt ps "max_nodes"))).map
      fun (path, function, bound) =>
        .stack path function ((ps.value? "format").getD "json") bound
  | graph => (truth ps "remove_isolated").map .graph

end Endpoint

/-- The endpoint at an address. Slashes at the end of its path do not matter. -/
def endpointAt? (address : String) : Option Endpoint :=
  let bare := ((Address.path address).reverse.dropWhile (· == '/')).reverse
  Endpoint.all.find? (·.path.toList == bare)

/-- The operation that a request asks for. The case of its method does not matter. -/
def Request.operation (r : Request) : Except Refusal Operation :=
  match endpointAt? r.address with
  | none => .error .pathUnknown
  | some e =>
    if r.method.toUpper = e.method then (e.operation r.parameters).mapError .invalid
    else .error .methodUnfit

end CallAtlas.Server
