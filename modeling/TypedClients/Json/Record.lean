import TypedClients.Json.Basic

/-!
# Records

A record is read from an object by the names of its fields, or from an array by their order. Other
members of the object are not looked at; a field that is given twice spoils the record. In an
array the fields at the end may be missing if they have a default.

## Fields

A field must be there (`required?`), may be absent or null (`optional?`), or may be absent and then
has a default (`defaulted?`), for which null is not taken. Which one it is is said where the record
is decoded; whether it may be missing at the end of an array is said in the list of its fields
(`Field`).

## Where it is used

A schema is read in this way, and so are an OpenAPI document, an AsyncAPI document and the parts of
both. Where an object is a map and not a record, all its keys count (`map?`). Whether an object is a
reference is told before it is read as a record (`refPath?`), and needs exactly one `$ref`.
-/

namespace TypedClients.Json

/-- A field of a record: its name, and whether it may be missing from an array. -/
structure Field where
  name : String
  hasDefault : Bool

/-- The fields that an object gives. -/
def fieldsOfMembers {α : Type} (fields : List Field) (members : List (String × α)) :
    Option (List (String × α)) :=
  let known := members.filter fun m => fields.any fun f => f.name == m.1
  if (known.map Prod.fst).Nodup then some known else none

/-- The fields that an array gives. -/
def fieldsOfItems {α : Type} (fields : List Field) (items : List α) :
    Option (List (String × α)) :=
  if items.length ≤ fields.length && (fields.drop items.length).all Field.hasDefault then
    some ((fields.map Field.name).zip items)
  else none

/-- The fields that a value gives. -/
def record? (fields : List Field) : Json → Option (List (String × Json))
  | .object members => fieldsOfMembers fields members
  | .array items => fieldsOfItems fields items
  | _ => none

/-- A field that must be there. -/
def required? {α β : Type} (name : String) (decode : α → Option β)
    (record : List (String × α)) : Option β :=
  (Keyed.get? name record).bind decode

/-- A field that may be absent or null. -/
def optional? {β : Type} (name : String) (decode : Json → Option β)
    (record : List (String × Json)) : Option (Option β) :=
  match Keyed.get? name record with
  | none => some none
  | some .null => some none
  | some value => (decode value).map some

/-- A field that may be absent, and then has a default. -/
def defaulted? {α β : Type} (name : String) (start : β) (decode : α → Option β)
    (record : List (String × α)) : Option β :=
  match Keyed.get? name record with
  | none => some start
  | some value => decode value

/-- A list of values. -/
def list? {β : Type} (decode : Json → Option β) : Json → Option (List β)
  | .array items => items.mapM decode
  | _ => none

/-- A map: the last value of a key wins, in the place of the first. -/
def map? {β : Type} (decode : Json → Option β) : Json → Option (List (String × β))
  | .object members =>
    (members.mapM fun m => (decode m.2).map fun v => (m.1, v)).map Keyed.ofList
  | _ => none

/-- The name of a value without content, written as a string, or as an object with the name for
its only key and null under it. -/
def unitName? : Json → Option String
  | .string s => some s
  | .object [(name, .null)] => some name
  | _ => none

/-- The path of a reference: an object with exactly one `$ref`, and a string under it. -/
def refPath? (members : List (String × Json)) : Option String :=
  match members.filter fun m => m.1 == "$ref" with
  | [(_, .string path)] => some path
  | _ => none

end TypedClients.Json
