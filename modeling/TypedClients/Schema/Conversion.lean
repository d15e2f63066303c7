import TypedClients.Name.Derived
import TypedClients.Node.Basic
import TypedClients.Schema.Basic
import TypedClients.Schema.Resolution

/-!
# From schemas to nodes

A converter turns schemas into nodes. Its context says which references are allowed and what a
schema without a type means: inside an OpenAPI document references name components and such a
schema carries no value, inside an entity file references name local definitions and such a
schema allows any value.

A local definition that is no entity of its own is expanded where it is referred to. The converter
remembers the references that it is in the middle of expanding, and meeting one of them again is
an error. This memory is the state of `Conversion`; an error does not lose it.

The conversion of a schema is structural, with the treatment of references as a parameter.
`Converter.expand` is that treatment. It counts down a budget of one for each local definition and
one more: the references in the memory are distinct and each names a definition, so the budget is
never used up.

## What is not here

* `allOf` has no shape here, and neither has a type of another name: both are errors. `anyOf` goes
  before `oneOf`, and either becomes a union, whatever else the schema says.
* Entities are never expanded. A reference to one is a reference in the node, so only local
  definitions can lead in a circle.
* The context cannot be changed on the way down. A schema under a local definition is converted as
  if it stood where the reference stands.
-/

namespace TypedClients

/-- A computation with the memory of the references that are being expanded. -/
abbrev Conversion (α : Type) := ExceptT ResolveError (StateM (List String)) α

/-- Where the schemas live that are converted. -/
inductive RefContext where
  /-- Inside an OpenAPI document. -/
  | components
  /-- Inside an entity file, whose root holds the local definitions. -/
  | entity (root : Schema)

/-- The shape of a schema without a type. -/
def RefContext.untyped : RefContext → Primitive
  | .components => .void
  | .entity _ => .unknown

/-- A keyword, with the title of the schema that uses it. -/
def describeKeyword (title : Option String) (keyword : String) : String :=
  match title with
  | some title => "`" ++ keyword ++ "` in schema `" ++ title ++ "`"
  | none => "`" ++ keyword ++ "`"

/-- The shape of one type, given those that the array and the object of the schema have. -/
def convertType (title : Option String) (asArray asObject : Conversion Node) :
    TypeName → Conversion Node
  | .string => pure (.prim .string)
  | .number => pure (.prim .number)
  | .integer => pure (.prim .number)
  | .boolean => pure (.prim .boolean)
  | .null => pure (.prim .null)
  | .array => asArray
  | .object => asObject
  | .unsupported => throw (.unsupportedSchema (describeKeyword title "type"))

/-- An object of converted parts. Only a name with a property can be required. -/
def objectNode (properties : List (String × Node)) (required : List String)
    (additional : Option Node) : Node :=
  .object properties (Keyed.distinct (required.filter fun name => name ∈ Keyed.keys properties))
    additional

mutual

/-- Converts a schema, with `onRef` for its references and `untyped` for a schema without a
type. -/
def convertWith (onRef : String → Conversion Node) (untyped : Primitive) :
    Schema → Conversion Node
  | .ref path => onRef path
  | .inline type title properties required additional items allOf oneOf anyOf _ _ =>
    let asArray := do
      let items ← convertItems onRef untyped items
      pure (Node.array items)
    let asObject := do
      let properties ← convertProperties onRef untyped properties
      let additional ← convertAdditional onRef untyped additional
      pure (objectNode properties required additional)
    if !allOf.isEmpty then throw (.unsupportedSchema (describeKeyword title "allOf"))
    else if !anyOf.isEmpty then do
      let members ← convertList onRef untyped anyOf
      pure (.union members)
    else if !oneOf.isEmpty then do
      let members ← convertList onRef untyped oneOf
      pure (.union members)
    else
      match type with
      | some (.one type) => convertType title asArray asObject type
      | some (.several types) => do
        let members ← types.mapM (convertType title asArray asObject)
        pure (.union members)
      | none =>
        if !properties.isEmpty || additional.any Additional.isTyped then asObject
        else pure (.prim untyped)

/-- Converts the items of an array; without a schema they may be anything. -/
def convertItems (onRef : String → Conversion Node) (untyped : Primitive) :
    Option Schema → Conversion Node
  | none => pure (.prim .unknown)
  | some schema => convertWith onRef untyped schema

/-- Converts the properties of an object, in order. -/
def convertProperties (onRef : String → Conversion Node) (untyped : Primitive) :
    List (String × Schema) → Conversion (List (String × Node))
  | [] => pure []
  | (key, schema) :: rest => do
    let node ← convertWith onRef untyped schema
    let nodes ← convertProperties onRef untyped rest
    pure ((key, node) :: nodes)

/-- Converts the values outside the properties, where they are constrained. -/
def convertAdditional (onRef : String → Conversion Node) (untyped : Primitive) :
    Option Additional → Conversion (Option Node)
  | none => pure none
  | some (.flag _) => pure none
  | some (.schema values) =>
    if values.isUntyped then pure none
    else do
      let node ← convertWith onRef untyped values
      pure (some node)

/-- Converts the members of a union, in order. -/
def convertList (onRef : String → Conversion Node) (untyped : Primitive) :
    List Schema → Conversion (List Node)
  | [] => pure []
  | schema :: rest => do
    let node ← convertWith onRef untyped schema
    let nodes ← convertList onRef untyped rest
    pure (node :: nodes)

end

/-- Converts schemas to nodes whose references are among `entities`. -/
structure Converter where
  entities : List String
  context : RefContext

namespace Converter

/-- What a reference to a component begins with. -/
def componentLead : String := "#/components/schemas/"

/-- What the references to local definitions begin with, and the definitions they mean. -/
def localTables (root : Schema) : List (String × List (String × Schema)) :=
  [("#/$defs/", root.defs), ("#/definitions/", root.definitions)]

/-- The name that a local reference gives, and the definitions to look in. -/
def localTarget? (root : Schema) (path : String) :
    Option (String × List (String × Schema)) :=
  (localTables root).findSome? fun (lead, table) =>
    (Text.after? lead path).map fun name => (name, table)

/-- Runs `action` while `path` is remembered, and forgets it again whatever comes of it. -/
def remembering {α : Type} (path : String) (action : Conversion α) : Conversion α := do
  modify fun visiting => path :: visiting
  let outcome ← ExceptT.lift action.run
  modify fun visiting => visiting.erase path
  match outcome with
  | .ok a => pure a
  | .error e => throw e

/-- The node that a reference stands for. -/
def expand (c : Converter) : (budget : Nat) → String → Conversion Node
  | 0, path => throw (.circular path)
  | budget + 1, path =>
    match c.context with
    | .components =>
      match Text.after? componentLead path with
      | none => throw (.unsupportedRef path)
      | some name =>
        if Name.entity name ∈ c.entities then pure (.ref (Name.entity name))
        else throw (.unknownEntity name)
    | .entity root =>
      match localTarget? root path with
      | none => throw (.unsupportedRef path)
      | some (name, table) =>
        if Name.entity name ∈ c.entities then pure (.ref (Name.entity name))
        else
          match Keyed.get? name table with
          | none => throw (.targetNotFound path)
          | some target => do
            let visiting ← get
            if path ∈ visiting then throw (.circular path)
            else remembering path (convertWith (c.expand budget) c.context.untyped target)

/-- One for each local definition and one more. -/
def budget (c : Converter) : Nat :=
  match c.context with
  | .components => 1
  | .entity root => root.defs.length + root.definitions.length + 1

/-- Converts a schema, in the memory that the conversions before have left. -/
def convert (c : Converter) (schema : Schema) : Conversion Node :=
  convertWith (c.expand c.budget) c.context.untyped schema

/-- Converts a schema with a fresh memory. -/
def node (c : Converter) (schema : Schema) : Except ResolveError Node :=
  ((c.convert schema).run.run []).1

end Converter

end TypedClients
