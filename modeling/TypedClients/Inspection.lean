import TypedClients.Config.Basic
import TypedClients.Endpoint.Grouping
import TypedClients.Node.Printer
import TypedClients.Source

/-!
# Inspecting inputs

What the inputs of a generator have been read as, as a tree to be printed.

The tree is made from what the generators work with: the entities with the names that they are
declared under, the endpoints in their groups with the types of their parts, and the channels of
each namespace. Types are written as in the declarations of the hooks (`RefStyle.bare`), whatever
the generator is.

The keys of the tree and their order are fixed, and both printers keep them. The tags are a list, so
two tags of one key are both shown; the versions of a tag are an object, so of two versions of one
key the later one is. Nothing is refused here that the reading of the inputs does not refuse.
-/

namespace TypedClients

/-- The kind of a node. -/
def Node.kind : Node → String
  | .ref _ => "reference"
  | .object [] _ _ => "record"
  | .object _ _ _ => "object"
  | .array _ => "array"
  | .union _ => "union"
  | .prim p => p.word

namespace Inspection

/-- A list of texts. -/
def texts (items : List String) : Json :=
  .array (items.map .string)

/-- A number. -/
def number (n : Nat) : Json :=
  .number (toString n)

/-- The kind and type of a shape. -/
def shape (node : Node) : Json :=
  .object [("kind", .string node.kind), ("type", .string (node.typeText .bare))]

/-- The kind and type of a shape that may be missing. -/
def shape? (node : Option Node) : Json :=
  (node.map shape).getD .null

/-- An entity. -/
def ofEntity (entity : Entity) : Json :=
  .object [("name", .string entity.name), ("source", .string entity.source),
    ("kind", .string entity.shape.kind), ("references", texts entity.shape.references)]

/-- An endpoint. -/
def ofEndpoint (endpoint : Endpoint) : Json :=
  .object [("name", .string endpoint.name.name), ("versioned", .string endpoint.name.versioned),
    ("method", .string endpoint.method.word), ("path", .string endpoint.path),
    ("parameters", texts (endpoint.parameters.map EndpointParameter.name)),
    ("body", shape? endpoint.body), ("response", shape? endpoint.response)]

/-- The endpoints at the given positions. -/
def ofPositions (endpoints : List Endpoint) (positions : List Nat) : Json :=
  .array ((positions.filterMap fun i => endpoints[i]?).map ofEndpoint)

/-- The endpoints of a tag. Two versions of one key show the later of them. -/
def ofTag (endpoints : List Endpoint) (tag : String) (buckets : Buckets) : Json :=
  .object [("tag", .string tag), ("key", .string (Name.tagKey tag)),
    ("operations", ofPositions endpoints buckets.unversioned),
    ("versions", .object (Keyed.ofList (buckets.versions.map fun (version, positions) =>
      (Name.versionKey version, ofPositions endpoints positions))))]

/-- A side of a channel. -/
def ofSide (side : Option Socket.Side) : Json :=
  (side.map fun s => shape? s.payload).getD .null

/-- A channel. -/
def ofChannel (channel : Socket.Channel) : Json :=
  .object [("address", .string channel.address), ("event", .string channel.event),
    ("ack", .bool channel.ack), ("receive", ofSide channel.receive),
    ("send", ofSide channel.send)]

/-- A namespace. -/
def ofSpace (space : Socket.Space) : Json :=
  .object [("namespace", .string space.name), ("title", .string space.title),
    ("channels", .array (space.channels.map ofChannel))]

/-- The inputs of a generator. -/
def ofGenerator (source : Source) : Generator → Except SourceError Json
  | .entities => do
    let entities ← source.loadEntities
    .ok (.object [("entities", .array (entities.map ofEntity))])
  | .api => do
    let endpoints ← source.loadEndpoints source.entityNames
    let tags := (Endpoint.group endpoints).map fun (tag, buckets) => ofTag endpoints tag buckets
    .ok (.object [("operations", number endpoints.length), ("tags", .array tags)])
  | .sockets => do
    let spaces ← source.loadSpaces source.entityNames
    .ok (.object [("namespaces", .array (spaces.map ofSpace))])

end Inspection

end TypedClients
