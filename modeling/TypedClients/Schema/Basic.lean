/-!
# Schemas

The part of a JSON Schema that shapes are made from. Other keywords carry no shape and are not
kept.

## What is kept

A schema is a reference, or the eleven keywords that shapes are made from; what else it says about a
value, such as formats, bounds and constants, is passed over when it is read. The types of a list
stay in their order, and so do properties and definitions.

## What a schema without a shape is

`isUntyped` asks whether no keyword says anything about the shape of a value. It does not look at
`additionalProperties`, at `required` or at the definitions. So a schema with nothing but the first
of these counts as untyped where it stands for the values of an object, although it is not without a
shape where it stands alone.
-/

namespace TypedClients

/-- A type of the `type` keyword. -/
inductive TypeName where
  | string
  | number
  | integer
  | boolean
  | array
  | object
  | null
  /-- Any other name. -/
  | unsupported
  deriving DecidableEq, Repr

/-- How a type is written. -/
def TypeName.word : TypeName → String
  | .string => "string"
  | .number => "number"
  | .integer => "integer"
  | .boolean => "boolean"
  | .array => "array"
  | .object => "object"
  | .null => "null"
  | .unsupported => "unsupported"

/-- The type that a name means. -/
def TypeName.ofWord (word : String) : TypeName :=
  match word with
  | "string" => .string
  | "number" => .number
  | "integer" => .integer
  | "boolean" => .boolean
  | "array" => .array
  | "object" => .object
  | "null" => .null
  | _ => .unsupported

/-- The value of the `type` keyword: one type or a list. -/
inductive TypeSet where
  | one (type : TypeName)
  | several (types : List TypeName)
  deriving DecidableEq, Repr

mutual

/-- A schema: a reference, or the keywords it is made of. -/
inductive Schema where
  | ref (path : String)
  | inline (type : Option TypeSet) (title : Option String) (properties : List (String × Schema))
      (required : List String) (additional : Option Additional) (items : Option Schema)
      (allOf oneOf anyOf : List Schema) (defs definitions : List (String × Schema))

/-- The value of `additionalProperties`. -/
inductive Additional where
  | flag (allowed : Bool)
  | schema (values : Schema)

end

namespace Schema

/-- A schema without keywords. -/
def empty : Schema := .inline none none [] [] none none [] [] [] [] []

/-- The local definitions under `$defs`. -/
def defs : Schema → List (String × Schema)
  | .ref _ => []
  | .inline _ _ _ _ _ _ _ _ _ defs _ => defs

/-- The local definitions under `definitions`. -/
def definitions : Schema → List (String × Schema)
  | .ref _ => []
  | .inline _ _ _ _ _ _ _ _ _ _ definitions => definitions

/-- Whether the schema has no keyword that says anything about the shape of a value. -/
def isUntyped : Schema → Bool
  | .ref _ => false
  | .inline type _ properties _ _ items allOf oneOf anyOf _ _ =>
    type.isNone && properties.isEmpty && items.isNone && allOf.isEmpty && oneOf.isEmpty
      && anyOf.isEmpty

end Schema

/-- Whether `additionalProperties` constrains the values: a boolean or an untyped schema does
not. -/
def Additional.isTyped : Additional → Bool
  | .flag _ => false
  | .schema values => !values.isUntyped

end TypedClients
