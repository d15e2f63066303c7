import TypedClients.Keyed

/-!
# Nodes

A node describes the shape of a value. It is what a schema is converted to and what validators
and types are printed from. A reference always names an entity; it is never expanded, so entities
may refer to each other in circles.

## What a node cannot say

A node has no bounds, patterns or formats, and no constants: it says what the type of a value can
say. A union may have any number of members and may stand in another one. Neither is simplified when
a node is made, so printers have to deal with it. The names that an object requires are names of its
properties, as far as nodes are made from schemas (`objectNode`); the type of nodes does not ask for
it.
-/

namespace TypedClients

/-- A shape without parts. -/
inductive Primitive where
  | string
  | number
  | boolean
  | null
  | void
  | unknown
  deriving DecidableEq, Repr

/-- The word for a primitive, the same in validators and in types. -/
def Primitive.word : Primitive → String
  | .string => "string"
  | .number => "number"
  | .boolean => "boolean"
  | .null => "null"
  | .void => "void"
  | .unknown => "unknown"

/-- The shape of a value. An object without properties is a record with string keys whose values
have the shape `additional`, or any shape if that is absent; in an object with properties
`additional` is not looked at. -/
inductive Node where
  | ref (name : String)
  | object (properties : List (String × Node)) (required : List String) (additional : Option Node)
  | array (items : Node)
  | union (members : List Node)
  | prim (kind : Primitive)
  deriving Inhabited

namespace Node

/-- An object of which nothing is known. -/
def freeForm : Node := .object [] [] none

mutual

/-- The entities that the node refers to, at any depth, in order and with repetitions. -/
def mentions : Node → List String
  | .ref name => [name]
  | .object properties _ additional =>
    mentionsOfProperties properties ++ mentionsOfOption additional
  | .array items => items.mentions
  | .union members => mentionsOfList members
  | .prim _ => []

/-- `mentions` of the properties of an object. -/
def mentionsOfProperties : List (String × Node) → List String
  | [] => []
  | (_, node) :: rest => node.mentions ++ mentionsOfProperties rest

/-- `mentions` of a node that may be absent. -/
def mentionsOfOption : Option Node → List String
  | none => []
  | some node => node.mentions

/-- `mentions` of the members of a union. -/
def mentionsOfList : List Node → List String
  | [] => []
  | node :: rest => node.mentions ++ mentionsOfList rest

end

/-- The entities that the node refers to, in the order in which they are first met. -/
def references (node : Node) : List String :=
  Keyed.distinct node.mentions

end Node

/-- A named shape of the entity module, and the file stem it was read from. -/
structure Entity where
  source : String
  name : String
  shape : Node

end TypedClients
