import TypedClients.Endpoint.Basic
import TypedClients.Node.Printer

/-!
# Plans

A plan says what the hook of an endpoint is called, which types it mentions and which declarations
have to stand before it. Planning claims the names it declares; a name that is taken already ends
it, and the names claimed so far stay claimed.

## What is planned

A hook mentions the types of its parameters, its body and its response. A shape that is a reference
to an entity is mentioned by the entity's name and needs no declaration. Any other gets one
(`typeFor`), whose name is that of the operation and a word behind it, so two operations of one name
can clash; an operation that declares nothing claims nothing and clashes with none.

The parameters are always an object of their own (`paramsShape`), with one property for each name.
What the response is handed through is named here too: the validator of its type (`Plan.parseFn`).

## What is not here

Which names are taken before the first endpoint is planned is for the module to say, and the order
of the endpoints as well. Planning prints nothing: `Declaration.text` is used when the module is put
together.
-/

namespace TypedClients

/-- A name that is declared twice, with what is said about it. -/
structure DuplicateDeclaration where
  what : String
  deriving DecidableEq, Repr

/-- The message of the error. -/
def DuplicateDeclaration.message (d : DuplicateDeclaration) : String :=
  "duplicate declaration `" ++ d.what ++ "`"

/-- A validator and the type of the same name. -/
structure Declaration where
  name : String
  shape : Node

/-- The source of a declaration. -/
def Declaration.text (d : Declaration) : String :=
  "const " ++ d.name ++ " = " ++ d.shape.validator .bare ++ ";\ntype " ++ d.name
    ++ " = z.infer<typeof " ++ d.name ++ ">;"

/-- What the hook of an endpoint needs. -/
structure Plan where
  endpoint : Endpoint
  hook : String
  /-- The type of the parameters, if there are any. -/
  paramsType : Option String
  /-- The type of the body, if there is one. -/
  bodyType : Option String
  responseType : String
  /-- The function that is applied to the data of a response. -/
  parseFn : Option String
  declarations : List Declaration

/-- A computation with the names that are taken. -/
abbrev Planning (α : Type) := ExceptT DuplicateDeclaration (StateM (List String)) α

namespace Plan

/-- Claims a name. -/
def claim (name : String) : Planning Unit := do
  let taken ← get
  if name ∈ taken then throw ⟨name⟩
  else set (name :: taken)

/-- Claims the name of a declaration. -/
def declare (name : String) (shape : Node) : Planning Declaration := do
  claim name
  pure ⟨name, shape⟩

/-- The object of an endpoint's parameters. -/
def paramsShape (parameters : List EndpointParameter) : Node :=
  .object (Keyed.ofList (parameters.map fun p => (p.name, p.shape)))
    (Keyed.distinct ((parameters.filter fun p => p.required).map EndpointParameter.name)) none

/-- The type for a shape, and its declaration if it is not an entity. -/
def typeFor (name : String) : Option Node → Planning (Option String × List Declaration)
  | none => pure (none, [])
  | some (.ref entity) => pure (some entity, [])
  | some shape => do
    let declaration ← declare name shape
    pure (some name, [declaration])

/-- Plans the hook of an endpoint. -/
def ofEndpoint (endpoint : Endpoint) : Planning Plan := do
  let versioned := endpoint.name.versioned
  let (paramsType, params) ←
    if endpoint.parameters.isEmpty then pure (none, [])
    else do
      let name := versioned ++ "Params"
      let declaration ← declare name (paramsShape endpoint.parameters)
      pure (some name, [declaration])
  let (bodyType, body) ← typeFor (versioned ++ "Body") endpoint.body
  let (responseType, response) ← typeFor (versioned ++ "Resp") endpoint.response
  pure
    { endpoint := endpoint
      hook := Name.hook endpoint.name.name
      paramsType := paramsType
      bodyType := bodyType
      responseType := responseType.getD "void"
      parseFn := responseType.map fun t => t ++ ".parse"
      declarations := params ++ body ++ response }

/-- Plans endpoints one after the other. -/
def ofEndpoints (endpoints : List Endpoint) : Planning (List Plan) :=
  endpoints.mapM ofEndpoint

end Plan

end TypedClients
