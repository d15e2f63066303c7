import TypedClients.Json.Pointer
import TypedClients.Json.Record
import TypedClients.Method
import TypedClients.Schema.Decode
import TypedClients.Schema.Resolution

/-!
# OpenAPI documents

The parts of an OpenAPI document that endpoints are made from, and how they are read from a JSON
tree. A path item keeps its members as trees; an operation among them is read when the path
item's operations are listed, so a path that holds a broken operation is a document all the same.

## What is read

Of a document its version, its title and its paths; of a path item its shared parameters and its
operations; of an operation its id, summary, tags, parameters, body and responses; of a parameter
its name, its location, whether it is required, and its schema; of a body the schemas of its media
types. Of a schema all keywords that shapes are made from are read.

A member that is not read may hold anything. A reference is a reference whatever stands beside its
`$ref`.

## What is not here

Components are not kept: references to parameters, bodies and responses are not followed, and
references to schemas name entities. Whether a path has a parameter for each of its placeholders is
not asked.
-/

namespace TypedClients.OpenApi

/-- Where a parameter is sent. -/
inductive Location where
  | query
  | header
  | path
  | cookie
  deriving DecidableEq, Repr

/-- How a location is written. -/
def Location.word : Location → String
  | .query => "query"
  | .header => "header"
  | .path => "path"
  | .cookie => "cookie"

/-- The location that a name means. -/
def Location.ofWord? (word : String) : Option Location :=
  [Location.query, .header, .path, .cookie].find? fun l => l.word == word

/-- A parameter of a path or an operation. -/
structure Parameter where
  name : String
  location : Location
  required : Bool
  schema : Option Schema

/-- A parameter where it is used: a reference, or the parameter itself. -/
inductive ParameterItem where
  | ref (path : String)
  | inline (parameter : Parameter)

/-- The media types of a body, each with its schema if it has one. -/
abbrev Content := List (String × Option Schema)

/-- The body of a request or a response: a reference, or the media types it comes in. -/
inductive Body where
  | ref (path : String)
  | inline (content : Content)

/-- The media type that bodies are generated from. -/
def jsonMediaType : String := "application/json"

/-- The schema of a body in JSON; a reference has none. -/
def Body.jsonSchema? : Body → Option Schema
  | .ref _ => none
  | .inline content => (Keyed.get? jsonMediaType content).join

/-- An operation of a path. -/
structure Operation where
  id : Option String
  summary : Option String
  tags : List String
  parameters : List ParameterItem
  requestBody : Option Body
  responses : List (String × Body)

/-- A path item: the parameters that its operations share, and its other members. -/
structure PathItem where
  parameters : List ParameterItem
  entries : List (String × Json)

/-- A document. -/
structure Document where
  version : String
  title : String
  paths : List (String × PathItem)

/-! ### From JSON values -/

/-- A parameter from a JSON value. -/
def Parameter.ofJson? (value : Json) : Option Parameter := do
  let record ← value.record?
    [⟨"name", false⟩, ⟨"in", false⟩, ⟨"required", true⟩, ⟨"schema", false⟩]
  let name ← Json.required? "name" Json.string? record
  let location ← Json.required? "in" (fun v => v.unitName?.bind Location.ofWord?) record
  let required ← Json.defaulted? "required" false Json.bool? record
  let schema ← Json.optional? "schema" Schema.ofJson? record
  some ⟨name, location, required, schema⟩

/-- The reference that a value is, if it is one. -/
def refOfJson? : Json → Option String
  | .object members => Json.refPath? members
  | _ => none

/-- A parameter or a reference from a JSON value. -/
def ParameterItem.ofJson? (value : Json) : Option ParameterItem :=
  match refOfJson? value with
  | some path => some (.ref path)
  | none => (Parameter.ofJson? value).map .inline

/-- The schema of a media type from a JSON value. -/
def mediaTypeOfJson? (value : Json) : Option (Option Schema) := do
  let record ← value.record? [⟨"schema", false⟩]
  Json.optional? "schema" Schema.ofJson? record

/-- A body or a reference from a JSON value. -/
def Body.ofJson? (value : Json) : Option Body :=
  match refOfJson? value with
  | some path => some (.ref path)
  | none => do
    let record ← value.record? [⟨"content", true⟩]
    let content ← Json.defaulted? "content" [] (Json.map? mediaTypeOfJson?) record
    some (.inline content)

/-- An operation from a JSON value. -/
def Operation.ofJson? (value : Json) : Option Operation := do
  let record ← value.record?
    [⟨"operationId", false⟩, ⟨"summary", false⟩, ⟨"tags", true⟩, ⟨"parameters", true⟩,
     ⟨"requestBody", false⟩, ⟨"responses", true⟩]
  let id ← Json.optional? "operationId" Json.string? record
  let summary ← Json.optional? "summary" Json.string? record
  let tags ← Json.defaulted? "tags" [] (Json.list? Json.string?) record
  let parameters ← Json.defaulted? "parameters" [] (Json.list? ParameterItem.ofJson?) record
  let requestBody ← Json.optional? "requestBody" Body.ofJson? record
  let responses ← Json.defaulted? "responses" [] (Json.map? Body.ofJson?) record
  some ⟨id, summary, tags, parameters, requestBody, responses⟩

/-- A path item from its parameters, if given, and its other members. -/
def PathItem.ofParts (parameters : Option (List ParameterItem)) (others : List (String × Json)) :
    PathItem :=
  ⟨parameters.getD [], Keyed.ofList (Json.uniqueMembers others)⟩

/-- A path item from a JSON value. -/
def PathItem.ofJson? : Json → Option PathItem
  | .object members =>
    let others := members.filter fun m => m.1 != "parameters"
    match members.filter fun m => m.1 == "parameters" with
    | [] => some (.ofParts none others)
    | [(_, value)] => do
      let parameters ← Json.list? ParameterItem.ofJson? value
      some (.ofParts (some parameters) others)
    | _ => none
  | _ => none

/-- The operations of a path item, in the order of its members. Members that are no method are
passed over. -/
def PathItem.operations (path : String) (item : PathItem) :
    Except ResolveError (List (Method × Operation)) := do
  let found ← item.entries.mapM fun (key, value) =>
    match Method.ofWord? key with
    | none => Except.ok none
    | some method =>
      match Operation.ofJson? value with
      | some operation => .ok (some (method, operation))
      | none =>
        .error (.invalidPart ("#/paths/" ++ Json.escapeStep path ++ "/" ++ key) .mismatch)
  .ok (found.filterMap id)

/-! ### Whole documents -/

/-- A document whose members are still being read. -/
structure Draft where
  version : Option String
  title : Option String
  paths : Option (List (String × PathItem))

/-- The document of a finished draft: only the paths may be missing. -/
def Draft.finish (draft : Draft) : Except Json.Fault Document :=
  match draft.version, draft.title with
  | some version, some title => .ok ⟨version, title, draft.paths.getD []⟩
  | _, _ => .error .mismatch

/-- What a decoder gives, or the fault of a value that does not fit. -/
def fitting {α : Type} (decoded : Option α) : Except Json.Fault α :=
  match decoded with
  | some a => .ok a
  | none => .error .mismatch

/-- Refuses what has been given already. -/
def unlessGiven {α : Type} (old : Option α) : Except Json.Fault Unit :=
  if old.isSome then .error .mismatch else .ok ()

/-- The title that an `info` value gives, empty if it gives none. -/
def titleOfJson : Json → Except Json.Fault String
  | .object members => do
    let title ← members.foldlM
      (fun title (key, value) =>
        if key = "title" then do
          unlessGiven title
          let text ← fitting value.string?
          .ok (some text)
        else .ok title)
      none
    .ok (title.getD "")
  | .array [] => .ok ""
  | .array (value :: rest) => do
    let text ← fitting value.string?
    if rest.isEmpty then .ok text else .error .malformed
  | _ => .error .mismatch

/-- The path items that a `paths` value gives. -/
def pathsOfJson? (value : Json) : Option (List (String × PathItem)) :=
  value.map? PathItem.ofJson?

/-- Takes one member of a document into the draft. -/
def Draft.member (draft : Draft) (key : String) (value : Json) : Except Json.Fault Draft :=
  match key with
  | "openapi" => do
    unlessGiven draft.version
    let version ← fitting value.string?
    .ok { draft with version := some version }
  | "info" => do
    unlessGiven draft.title
    let title ← titleOfJson value
    .ok { draft with title := some title }
  | "paths" => do
    unlessGiven draft.paths
    let paths ← fitting (pathsOfJson? value)
    .ok { draft with paths := some paths }
  | _ => .ok draft

/-- A document from a JSON tree. A document or its `info` may also be an array of the fields in
order; an item beyond them makes the text malformed. -/
def Document.ofJson : Json → Except Json.Fault Document
  | .object members => do
    let draft ← members.foldlM (fun draft (key, value) => draft.member key value)
      (⟨none, none, none⟩ : Draft)
    draft.finish
  | .array items => do
    let draft ← (["openapi", "info", "paths"].zip items).foldlM
      (fun draft (key, value) => draft.member key value) (⟨none, none, none⟩ : Draft)
    if items.length ≤ 3 then draft.finish else .error .malformed
  | _ => .error .mismatch

end TypedClients.OpenApi
