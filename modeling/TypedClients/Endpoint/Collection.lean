import TypedClients.Endpoint.Basic
import TypedClients.OpenApi.Document
import TypedClients.Schema.Conversion

/-!
# The endpoints of a document

Every operation of an OpenAPI document becomes an endpoint, in the order of the paths and then of
the methods as they are written. Parameters, bodies and responses that are references are left
out.

## What becomes of what

* The tag is the first of the operation's tags, or else the first segment of its path.
* The parameters of the path stand before those of the operation, and are merged with them by name
  (`mergeParameters`). Where a parameter is sent does not count.
* The shapes of body and response are those of their JSON (`Body.jsonSchema?`); the response is that
  of the status `successStatus`, and of no other.

For each path all its operations are read before the first of them becomes an endpoint, and of an
operation the parameters are converted first, then the body, then the response. The error that is
given is the first one in this order.

## What is not here

References to parameters, bodies and responses are not followed, and what they stand for is as good
as absent. References to schemas name entities. Callbacks, security, servers and other media types
have no part in endpoints.
-/

namespace TypedClients.Endpoint

/-- The tag of what has neither a tag nor a path segment. -/
def rootTag : String := "root"

/-- The status whose response is typed. -/
def successStatus : String := "200"

/-- The tag of an operation: its first, else the first segment of its path. -/
def tagOf (path : String) (operation : OpenApi.Operation) : String :=
  match operation.tags with
  | tag :: _ => tag
  | [] =>
    match (Text.splitString '/' path).find? fun s => !s.isEmpty with
    | some segment => segment
    | none => rootTag

/-- The parameters that are given in place. -/
def inlineParameters (items : List OpenApi.ParameterItem) : List OpenApi.Parameter :=
  items.filterMap fun
    | .ref _ => none
    | .inline parameter => some parameter

/-- The shape of a parameter; without a schema it may be anything. -/
def parameterOf (converter : Converter) (parameter : OpenApi.Parameter) :
    Except ResolveError EndpointParameter := do
  let shape ← match parameter.schema with
    | some schema => converter.node schema
    | none => .ok (.prim .unknown)
  .ok ⟨parameter.name, shape, parameter.required⟩

/-- Merges parameters by name: a later one replaces an earlier one in its place. -/
def mergeParameters (parameters : List EndpointParameter) : List EndpointParameter :=
  (Keyed.ofList (parameters.map fun p => (p.name, p))).map Prod.snd

/-- The shape of a body that comes in JSON. -/
def bodyOf (converter : Converter) (body : Option OpenApi.Body) :
    Except ResolveError (Option Node) :=
  match body.bind OpenApi.Body.jsonSchema? with
  | none => .ok none
  | some schema => (converter.node schema).map some

/-- The endpoint of an operation, given the parameters of its path. -/
def ofOperation (entities : List String) (path : String)
    (shared : List OpenApi.ParameterItem) (method : Method) (operation : OpenApi.Operation) :
    Except ResolveError Endpoint := do
  let converter : Converter := ⟨entities, .components⟩
  let parameters ← (inlineParameters (shared ++ operation.parameters)).mapM
    (parameterOf converter)
  let body ← bodyOf converter operation.requestBody
  let response ← bodyOf converter (Keyed.get? successStatus operation.responses)
  .ok
    { tag := tagOf path operation
      method := method
      path := path
      name := OperationName.derive operation.id method path
      summary := operation.summary
      parameters := mergeParameters parameters
      body := body
      response := response }

/-- The endpoints of a path. -/
def ofPathItem (entities : List String) (path : String) (item : OpenApi.PathItem) :
    Except ResolveError (List Endpoint) := do
  let operations ← item.operations path
  operations.mapM fun (method, operation) =>
    ofOperation entities path item.parameters method operation

/-- The endpoints of a document. -/
def ofDocument (entities : List String) (document : OpenApi.Document) :
    Except ResolveError (List Endpoint) := do
  let found ← document.paths.mapM fun (path, item) => ofPathItem entities path item
  .ok found.flatten

end TypedClients.Endpoint
