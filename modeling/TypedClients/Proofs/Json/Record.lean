import TypedClients.Json.Record
import TypedClients.Proofs.Keyed
import TypedClients.Proofs.Outcome

/-!
# The fields of records

The fields of a record are among the members of the object, or the items of the array, that it is
read from. What is done to the values is done to those of the record.

## What it is for

Records are read by fields and fields by name, so whoever wants to know where a part of a document
comes from has to go back from the field to the member. The lemmas are stated for values of any kind
where the definitions are, since the fields of a schema hold readings and not values.
-/

namespace TypedClients.Json

variable {α β : Type}

/-- The fields of an object whose values are changed. -/
theorem fieldsOfMembers_map (fields : List Field) (f : α → β) (members : List (String × α)) :
    fieldsOfMembers fields (members.map fun m => (m.1, f m.2))
      = (fieldsOfMembers fields members).map fun record => record.map fun m => (m.1, f m.2) := by
  have hkeys : ∀ known : List (String × α),
      (known.map fun m => (m.1, f m.2)).map Prod.fst = known.map Prod.fst := by
    intro known
    rw [List.map_map]
    rfl
  rw [fieldsOfMembers, fieldsOfMembers, List.filter_map, Function.comp_def]
  dsimp only
  rw [hkeys]
  split <;> rfl

/-- The fields of an array whose items are changed. -/
theorem fieldsOfItems_map (fields : List Field) (f : α → β) (items : List α) :
    fieldsOfItems fields (items.map f)
      = (fieldsOfItems fields items).map fun record => record.map fun m => (m.1, f m.2) := by
  rw [fieldsOfItems, fieldsOfItems, List.length_map, List.zip_map_right]
  split <;> rfl

theorem mem_of_fieldsOfMembers {fields : List Field} {members record : List (String × α)}
    (h : fieldsOfMembers fields members = some record) {m : String × α} (hm : m ∈ record) :
    m ∈ members := by
  rw [fieldsOfMembers] at h
  split at h
  · cases h
    exact List.mem_of_mem_filter hm
  · cases h

theorem mem_of_fieldsOfItems {fields : List Field} {items : List α} {record : List (String × α)}
    (h : fieldsOfItems fields items = some record) {m : String × α} (hm : m ∈ record) :
    m.2 ∈ items := by
  rw [fieldsOfItems] at h
  split at h
  · cases h
    exact (List.of_mem_zip hm).2
  · cases h

/-- A field that is there and not null is read. -/
theorem optional?_of_present {name : String} {decode : Json → Option β}
    {record : List (String × Json)} {value : Json} (hget : Keyed.get? name record = some value)
    (hvalue : value ≠ .null) : optional? name decode record = (decode value).map some := by
  rw [optional?, hget]
  cases value with
  | null => exact absurd rfl hvalue
  | _ => rfl

/-- An entry of a map is read from a member of an object. -/
theorem exists_of_mem_map? {value : Json} {decode : Json → Option β} {entries : List (String × β)}
    (h : map? decode value = some entries) {key : String} {b : β} (hentry : (key, b) ∈ entries) :
    ∃ members part, value = .object members ∧ (key, part) ∈ members ∧ decode part = some b := by
  cases value with
  | object members =>
    obtain ⟨pairs, hpairs, rfl⟩ := Option.map_eq_some_iff.mp h
    obtain ⟨m, hm, hpair⟩ := exists_of_mem_mapM hpairs (Keyed.mem_of_mem_ofList hentry)
    obtain ⟨v, hv, hpair⟩ := Option.map_eq_some_iff.mp hpair
    cases hpair
    exact ⟨members, m.2, rfl, hm, hv⟩
  | _ => cases h

/-- What a field holds whose default is nothing is read from the field. -/
theorem exists_of_mem_defaulted? {name : String} {decode : α → Option (List β)}
    {record : List (String × α)} {entries : List β}
    (h : defaulted? name [] decode record = some entries) {entry : β} (hentry : entry ∈ entries) :
    ∃ field, (name, field) ∈ record ∧ decode field = some entries := by
  unfold defaulted? at h
  split at h
  · cases h
    cases hentry
  · next field hget => exact ⟨field, Keyed.mem_of_get?_eq_some hget, h⟩

end TypedClients.Json
