import TypedClients.Json.Record
import TypedClients.Proofs.Keyed

/-!
# Trees with unique keys

A property of all trees is proved from that of the values inside (`Json.induction`). Resolving the
repeated keys of a tree leaves none (`hasUniqueKeys_unique`), and changes nothing if no object has
any (`unique_eq_self`).

## What it is for

A JSON value is a nested inductive type, so the induction that comes with it asks for three
statements at once. `Json.induction` asks for one and gives it for all items and all members. What
is proved of whole trees here is about repeated keys: they are what makes the two ways to read an
object differ.
-/

namespace TypedClients.Json

/-- What holds of a value whenever it holds of the values inside holds of every value. -/
theorem induction {P : Json → Prop} (null : P .null) (bool : ∀ b, P (.bool b))
    (number : ∀ literal, P (.number literal)) (string : ∀ text, P (.string text))
    (array : ∀ items, (∀ item ∈ items, P item) → P (.array items))
    (object : ∀ members, (∀ m ∈ members, P m.2) → P (.object members)) : ∀ value, P value
  | .null => null
  | .bool b => bool b
  | .number literal => number literal
  | .string text => string text
  | .array items =>
    array items fun item _ => induction null bool number string array object item
  | .object members =>
    object members fun m _ => induction null bool number string array object m.2
termination_by value => sizeOf value
decreasing_by
  · have hlt := List.sizeOf_lt_of_mem ‹item ∈ items›
    simp only [Json.array.sizeOf_spec]
    omega
  · have hlt := List.sizeOf_lt_of_mem ‹m ∈ members›
    obtain ⟨key, value⟩ := m
    simp only [Prod.mk.sizeOf_spec] at hlt
    simp only [Json.object.sizeOf_spec]
    omega

mutual

/-- No object in the tree has a key twice. -/
def hasUniqueKeys : Json → Bool
  | .array items => itemsHaveUniqueKeys items
  | .object members => decide (Keyed.keys members).Nodup && membersHaveUniqueKeys members
  | .null => true
  | .bool _ => true
  | .number _ => true
  | .string _ => true

def itemsHaveUniqueKeys : List Json → Bool
  | [] => true
  | item :: rest => item.hasUniqueKeys && itemsHaveUniqueKeys rest

def membersHaveUniqueKeys : List (String × Json) → Bool
  | [] => true
  | (_, value) :: rest => value.hasUniqueKeys && membersHaveUniqueKeys rest

end

theorem hasUniqueKeys_array {items : List Json} :
    (Json.array items).hasUniqueKeys = true ↔ ∀ item ∈ items, item.hasUniqueKeys = true := by
  rw [hasUniqueKeys]
  induction items with
  | nil => simp [itemsHaveUniqueKeys]
  | cons item items ih => simp [itemsHaveUniqueKeys, ih]

theorem hasUniqueKeys_object {members : List (String × Json)} :
    (Json.object members).hasUniqueKeys = true ↔
      (Keyed.keys members).Nodup ∧ ∀ m ∈ members, m.2.hasUniqueKeys = true := by
  have hvalues : membersHaveUniqueKeys members = true ↔
      ∀ m ∈ members, m.2.hasUniqueKeys = true := by
    induction members with
    | nil => simp [membersHaveUniqueKeys]
    | cons m members ih =>
      obtain ⟨key, value⟩ := m
      simp [membersHaveUniqueKeys, ih]
  rw [hasUniqueKeys, Bool.and_eq_true, decide_eq_true_eq, hvalues]

theorem uniqueItems_eq_map (items : List Json) : uniqueItems items = items.map unique := by
  induction items with
  | nil => rfl
  | cons item items ih => rw [uniqueItems, ih, List.map_cons]

theorem uniqueMembers_eq_map (members : List (String × Json)) :
    uniqueMembers members = members.map fun m => (m.1, m.2.unique) := by
  induction members with
  | nil => rfl
  | cons m members ih => rw [uniqueMembers, ih, List.map_cons]

theorem uniqueMembers_eq_self {members : List (String × Json)}
    (h : ∀ m ∈ members, m.2.unique = m.2) : uniqueMembers members = members := by
  have hsame : ∀ m ∈ members, (m.1, m.2.unique) = id m := fun m hm => Prod.ext rfl (h m hm)
  rw [uniqueMembers_eq_map, List.map_congr_left hsame, List.map_id]

theorem unique_eq_self {value : Json} (h : value.hasUniqueKeys = true) : value.unique = value := by
  induction value using Json.induction with
  | array items ih =>
    rw [hasUniqueKeys_array] at h
    rw [unique, uniqueItems_eq_map]
    exact congrArg Json.array
      ((List.map_congr_left fun item hitem => ih item hitem (h item hitem)).trans (List.map_id _))
  | object members ih =>
    obtain ⟨hkeys, hvalues⟩ := hasUniqueKeys_object.mp h
    rw [unique, uniqueMembers_eq_self fun m hm => ih m hm (hvalues m hm), Keyed.ofList_eq_self hkeys]
  | _ => rfl

theorem hasUniqueKeys_unique (value : Json) : value.unique.hasUniqueKeys = true := by
  induction value using Json.induction with
  | array items ih =>
    rw [unique, uniqueItems_eq_map, hasUniqueKeys_array, List.forall_mem_map]
    exact ih
  | object members ih =>
    rw [unique, hasUniqueKeys_object, Keyed.keys_ofList]
    refine ⟨Keyed.nodup_distinct _, fun m hm => ?_⟩
    have hm := Keyed.mem_of_mem_ofList hm
    rw [uniqueMembers_eq_map, List.mem_map] at hm
    obtain ⟨member, hmember, rfl⟩ := hm
    exact ih member hmember
  | _ => rfl

end TypedClients.Json
