import TypedClients.Method
import TypedClients.Name.Derived
import TypedClients.Name.Version
import TypedClients.Node.Basic

/-!
# Endpoints

An endpoint is one HTTP operation as the hooks see it: its tag, method and path, the names derived
for it, its parameters and the shapes of its body and response.

The names of an operation are made from its id, or from its method and path if it has none
(`OperationName.derive`): the name without its version marker, the version, and the name that its
declarations begin with. Nothing else makes names for operations, so what is proved of derived names
holds of all of them.

The placeholders of a path are what stands between an opening brace and the next closing one. They
are found by a scan here (`Endpoint.placeholders`) and filled by another one where addresses are
written. That the two take a path apart in the same way is not built in; it is proved of them.
-/

namespace TypedClients

/-- The names of an operation. -/
structure OperationName where
  /-- The name without its version marker. -/
  name : String
  version : Option String
  /-- What the names of the operation's declarations begin with. -/
  versioned : String
  deriving DecidableEq, Repr

/-- The names of an operation with the given id, or without one. -/
def OperationName.derive (id : Option String) (method : Method) (path : String) :
    OperationName :=
  let raw := id.getD (Name.ofRoute method.word path)
  let (name, version) := Name.splitVersion raw
  let versioned := match version with
    | some v => Name.pascal name ++ Name.pascal v
    | none => Name.pascal name
  ⟨name, version, Name.binding versioned⟩

/-- A parameter of an endpoint. -/
structure EndpointParameter where
  name : String
  shape : Node
  required : Bool

/-- One HTTP operation. -/
structure Endpoint where
  tag : String
  method : Method
  path : String
  name : OperationName
  summary : Option String
  parameters : List EndpointParameter
  /-- The shape of a JSON body. -/
  body : Option Node
  /-- The shape of a successful JSON response. -/
  response : Option Node

namespace Endpoint

/-- Finds the placeholders in a path. `name` is what has been read of one that is open, last
character first; one that is never closed is none. -/
def placeholdersFrom : (name : Option (List Char)) → List Char → List String
  | _, [] => []
  | none, c :: r =>
    if c = '\x7b' then placeholdersFrom (some []) r else placeholdersFrom none r
  | some name, c :: r =>
    if c = '\x7d' then String.ofList name.reverse :: placeholdersFrom none r
    else placeholdersFrom (some (c :: name)) r

/-- The names of the placeholders in the endpoint's path, in order. -/
def placeholders (endpoint : Endpoint) : List String :=
  placeholdersFrom none endpoint.path.toList

end Endpoint

end TypedClients
