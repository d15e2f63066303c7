import TypedClients.Json.Record
import TypedClients.Json.Reader
import TypedClients.Schema.Basic

/-!
# Reading schemas

A schema is read from a JSON value. An object with one `$ref`, a string, is a reference, whatever
else it holds. Any other object or array is read as the record of the keywords.

The values under the keywords are read as schemas, lists of schemas or maps of schemas as the
keyword asks. `withReadings` puts these three readings beside every member, and the record is then
assembled from the ones it needs.

## Readings

A reading is computed only if it is asked for, since a value under `items` need not be a map of
schemas. The recursion goes over the JSON tree and not over the keywords: for each member it
prepares all three readings, so that the record can be assembled without recursion of its own. A
keyword that is given twice spoils the schema; under `properties` and in the definitions the last
value of a key wins.

## What is not here

Schemas that are booleans. Elsewhere they allow everything or nothing; here they are refused, except
under `additionalProperties`, where a boolean is a flag.
-/

namespace TypedClients.Schema

/-- The keywords that are read, in the order of the array form. -/
def fields : List Json.Field :=
  [⟨"type", false⟩, ⟨"title", false⟩, ⟨"properties", true⟩, ⟨"required", true⟩,
   ⟨"additionalProperties", false⟩, ⟨"items", false⟩, ⟨"allOf", true⟩, ⟨"oneOf", true⟩,
   ⟨"anyOf", true⟩, ⟨"$defs", true⟩, ⟨"definitions", true⟩]

/-- A type from its name. -/
def typeName? (value : Json) : Option TypeName :=
  value.unitName?.map TypeName.ofWord

/-- The value of the `type` keyword. -/
def typeSet? (value : Json) : Option TypeSet :=
  match typeName? value with
  | some type => some (.one type)
  | none => (Json.list? typeName? value).map .several

/-- A value with the ways in which it can be read. -/
structure Readings where
  value : Json
  schema : Unit → Option Schema
  list : Unit → Option (List Schema)
  map : Unit → Option (List (String × Schema))

/-- A keyword that may be absent or null. -/
def keyword? {α : Type} (name : String) (decode : Readings → Option α)
    (record : List (String × Readings)) : Option (Option α) :=
  match Keyed.get? name record with
  | none => some none
  | some readings =>
    match readings.value with
    | .null => some none
    | _ => (decode readings).map some

/-- The value of `additionalProperties`. -/
def additional? (readings : Readings) : Option Additional :=
  match readings.value with
  | .bool allowed => some (.flag allowed)
  | _ => (readings.schema ()).map .schema

/-- Assembles the keywords. -/
def ofRecord? (record : List (String × Readings)) : Option Schema := do
  let type ← keyword? "type" (fun r => typeSet? r.value) record
  let title ← keyword? "title" (fun r => r.value.string?) record
  let properties ← Json.defaulted? "properties" [] (fun r => r.map ()) record
  let required ← Json.defaulted? "required" [] (fun r => Json.list? Json.string? r.value) record
  let additional ← keyword? "additionalProperties" additional? record
  let items ← keyword? "items" (fun r => r.schema ()) record
  let allOf ← Json.defaulted? "allOf" [] (fun r => r.list ()) record
  let oneOf ← Json.defaulted? "oneOf" [] (fun r => r.list ()) record
  let anyOf ← Json.defaulted? "anyOf" [] (fun r => r.list ()) record
  let defs ← Json.defaulted? "$defs" [] (fun r => r.map ()) record
  let definitions ← Json.defaulted? "definitions" [] (fun r => r.map ()) record
  some (.inline type title properties required additional items allOf oneOf anyOf defs
    definitions)

mutual

/-- A schema from a JSON value. -/
def ofJson? : Json → Option Schema
  | .object members =>
    match Json.refPath? members with
    | some path => some (.ref path)
    | none => (Json.fieldsOfMembers fields (withReadings members)).bind ofRecord?
  | .array items => (Json.fieldsOfItems fields (itemsWithReadings items)).bind ofRecord?
  | .null => none
  | .bool _ => none
  | .number _ => none
  | .string _ => none

/-- A list of schemas from a JSON value. -/
def listOfJson? : Json → Option (List Schema)
  | .array items => ofItems? items
  | .object _ => none
  | .null => none
  | .bool _ => none
  | .number _ => none
  | .string _ => none

/-- A map of schemas from a JSON value. -/
def mapOfJson? : Json → Option (List (String × Schema))
  | .object members => (ofMembers? members).map Keyed.ofList
  | .array _ => none
  | .null => none
  | .bool _ => none
  | .number _ => none
  | .string _ => none

/-- The schemas of the items of an array. -/
def ofItems? : List Json → Option (List Schema)
  | [] => some []
  | item :: rest => do
    let schema ← ofJson? item
    let schemas ← ofItems? rest
    some (schema :: schemas)

/-- The schemas of the members of an object. -/
def ofMembers? : List (String × Json) → Option (List (String × Schema))
  | [] => some []
  | (key, value) :: rest => do
    let schema ← ofJson? value
    let schemas ← ofMembers? rest
    some ((key, schema) :: schemas)

/-- The members of an object, each with its readings. -/
def withReadings : List (String × Json) → List (String × Readings)
  | [] => []
  | (key, value) :: rest =>
    (key, ⟨value, fun _ => ofJson? value, fun _ => listOfJson? value,
      fun _ => mapOfJson? value⟩) :: withReadings rest

/-- The items of an array, each with its readings. -/
def itemsWithReadings : List Json → List Readings
  | [] => []
  | value :: rest =>
    ⟨value, fun _ => ofJson? value, fun _ => listOfJson? value, fun _ => mapOfJson? value⟩
      :: itemsWithReadings rest

end

/-- A schema from a text. Whether the value is a schema is seen before what follows it. -/
def read (text : String) : Except Json.Fault Schema :=
  Json.readEnd do
    let (value, rest) ← Json.readValue true (text.length + 1) Json.maxNesting text.toList
    match ofJson? value with
    | some schema => .ok (schema, rest)
    | none => .error .mismatch

end TypedClients.Schema
