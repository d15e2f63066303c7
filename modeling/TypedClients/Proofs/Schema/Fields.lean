import TypedClients.OpenApi.Document
import TypedClients.Proofs.Json.Record

/-!
# A schema from its fields

The keywords of a schema are read like the fields of any other record, the schemas under them one by
one, as lists or as maps (`ofJson?_eq`). The readings that the decoder puts beside the members are
these.

## What it is for

The decoder goes over the tree in one recursion, which is why it puts all readings beside each
member before it knows the keyword. For proofs the keywords should come first. `ofJson?_eq` says it
in that way, so nothing else has to know about readings.
-/

namespace TypedClients

namespace Schema

/-- The ways in which a value can be read. -/
def readings (value : Json) : Readings :=
  ⟨value, fun _ => ofJson? value, fun _ => listOfJson? value, fun _ => mapOfJson? value⟩

theorem withReadings_eq_map (members : List (String × Json)) :
    withReadings members = members.map fun m => (m.1, readings m.2) := by
  induction members with
  | nil => rfl
  | cons m members ih => rw [withReadings, ih, List.map_cons, readings]

theorem itemsWithReadings_eq_map (items : List Json) :
    itemsWithReadings items = items.map readings := by
  induction items with
  | nil => rfl
  | cons item items ih => rw [itemsWithReadings, ih, List.map_cons, readings]

theorem listOfJson?_eq (value : Json) : listOfJson? value = Json.list? ofJson? value := by
  cases value with
  | array items =>
    rw [listOfJson?, Json.list?]
    induction items with
    | nil => rfl
    | cons item items ih =>
      rw [ofItems?, ih, List.mapM_cons]
      rfl
  | _ => simp [listOfJson?, Json.list?]

theorem mapOfJson?_eq (value : Json) : mapOfJson? value = Json.map? ofJson? value := by
  cases value with
  | object members =>
    rw [mapOfJson?, Json.map?]
    congr 1
    induction members with
    | nil => rfl
    | cons m members ih =>
      rw [ofMembers?, ih, List.mapM_cons]
      cases ofJson? m.2 <;> rfl
  | _ => simp [mapOfJson?, Json.map?]

/-- The value of `additionalProperties`: a boolean or a schema. -/
def additionalOfJson? (value : Json) : Option Additional :=
  match value with
  | .bool allowed => some (.flag allowed)
  | value => (ofJson? value).map .schema

/-- The schema that is made of the given fields. -/
def ofFields? (record : List (String × Json)) : Option Schema := do
  let type ← Json.optional? "type" typeSet? record
  let title ← Json.optional? "title" Json.string? record
  let properties ← Json.defaulted? "properties" [] (Json.map? ofJson?) record
  let required ← Json.defaulted? "required" [] (Json.list? Json.string?) record
  let additional ← Json.optional? "additionalProperties" additionalOfJson? record
  let items ← Json.optional? "items" ofJson? record
  let allOf ← Json.defaulted? "allOf" [] (Json.list? ofJson?) record
  let oneOf ← Json.defaulted? "oneOf" [] (Json.list? ofJson?) record
  let anyOf ← Json.defaulted? "anyOf" [] (Json.list? ofJson?) record
  let defs ← Json.defaulted? "$defs" [] (Json.map? ofJson?) record
  let definitions ← Json.defaulted? "definitions" [] (Json.map? ofJson?) record
  some (.inline type title properties required additional items allOf oneOf anyOf defs
    definitions)

theorem keyword?_readings {α : Type} (name : String) (decode : Readings → Option α)
    (record : List (String × Json)) :
    keyword? name decode (record.map fun m => (m.1, readings m.2))
      = Json.optional? name (fun value => decode (readings value)) record := by
  rw [keyword?, Json.optional?, Keyed.get?_map (fun _ => readings)]
  cases Keyed.get? name record with
  | none => rfl
  | some value => cases value <;> rfl

theorem defaulted?_readings {α : Type} (name : String) (start : α)
    (decode : Readings → Option α) (record : List (String × Json)) :
    Json.defaulted? name start decode (record.map fun m => (m.1, readings m.2))
      = Json.defaulted? name start (fun value => decode (readings value)) record := by
  rw [Json.defaulted?, Json.defaulted?, Keyed.get?_map (fun _ => readings)]
  cases Keyed.get? name record <;> rfl

theorem ofRecord?_readings (record : List (String × Json)) :
    ofRecord? (record.map fun m => (m.1, readings m.2)) = ofFields? record := by
  have hadditional : (fun value => additional? (readings value)) = additionalOfJson? := by
    funext value
    cases value <;> rfl
  simp only [ofRecord?, ofFields?, keyword?_readings, defaulted?_readings, hadditional]
  simp only [readings, listOfJson?_eq, mapOfJson?_eq]

theorem ofJson?_eq (value : Json) :
    ofJson? value = match OpenApi.refOfJson? value with
      | some path => some (.ref path)
      | none => (value.record? fields).bind ofFields? := by
  have hrecord : ∀ record : Option (List (String × Json)),
      (record.map fun record => record.map fun m => (m.1, readings m.2)).bind ofRecord?
        = record.bind ofFields? := by
    rintro (_ | record)
    · rfl
    · exact ofRecord?_readings record
  cases value with
  | object members =>
    rw [ofJson?, withReadings_eq_map, Json.fieldsOfMembers_map, hrecord]
    rfl
  | array items =>
    rw [ofJson?, itemsWithReadings_eq_map, Json.fieldsOfItems_map, hrecord]
    rfl
  | _ => rw [ofJson?]; rfl

end Schema

end TypedClients
