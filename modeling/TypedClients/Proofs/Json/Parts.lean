import TypedClients.Json.Pointer
import TypedClients.Proofs.Json.Record
import TypedClients.Proofs.Json.Tree

/-!
# The values in a tree

A tree has as many values in it as its size says (`length_parts`), itself among them. What is taken
out of a value of the tree is a value of the tree: the members of objects and the items of arrays,
the fields of records and the entries of maps that are read from it, and what a pointer names.

The values are listed as they occur, so one that occurs twice is in the list twice. Where they are
counted without repetition there can only be fewer.
-/

namespace TypedClients.Json

mutual

/-- The value and all the values inside it. -/
def parts : Json → List Json
  | .array items => .array items :: partsOfItems items
  | .object members => .object members :: partsOfMembers members
  | .null => [.null]
  | .bool b => [.bool b]
  | .number n => [.number n]
  | .string s => [.string s]

/-- `parts` of the items of an array. -/
def partsOfItems : List Json → List Json
  | [] => []
  | item :: rest => item.parts ++ partsOfItems rest

/-- `parts` of the members of an object. -/
def partsOfMembers : List (String × Json) → List Json
  | [] => []
  | (_, value) :: rest => value.parts ++ partsOfMembers rest

end

variable {tree value part : Json}

theorem mem_partsOfItems {items : List Json} :
    part ∈ partsOfItems items ↔ ∃ item ∈ items, part ∈ item.parts := by
  induction items with
  | nil => simp [partsOfItems]
  | cons item items ih => simp [partsOfItems, ih]

theorem mem_partsOfMembers {members : List (String × Json)} :
    part ∈ partsOfMembers members ↔ ∃ m ∈ members, part ∈ m.2.parts := by
  induction members with
  | nil => simp [partsOfMembers]
  | cons m members ih =>
    obtain ⟨key, value⟩ := m
    simp [partsOfMembers, ih]

theorem length_parts (value : Json) : value.parts.length = value.size := by
  induction value using Json.induction with
  | array items ih =>
    have hitems : (partsOfItems items).length = sizeOfItems items := by
      induction items with
      | nil => rfl
      | cons item items ihs =>
        rw [List.forall_mem_cons] at ih
        rw [partsOfItems, sizeOfItems, List.length_append, ih.1, ihs ih.2]
    rw [parts, size, List.length_cons, hitems, Nat.add_comm]
  | object members ih =>
    have hmembers : (partsOfMembers members).length = sizeOfMembers members := by
      induction members with
      | nil => rfl
      | cons m members ihs =>
        obtain ⟨key, value⟩ := m
        rw [List.forall_mem_cons] at ih
        rw [partsOfMembers, sizeOfMembers, List.length_append, ih.1, ihs ih.2]
    rw [parts, size, List.length_cons, hmembers, Nat.add_comm]
  | _ => rfl

theorem mem_parts_self (value : Json) : value ∈ value.parts := by
  cases value <;> simp [parts]

theorem mem_parts_trans (hpart : part ∈ value.parts) (hvalue : value ∈ tree.parts) :
    part ∈ tree.parts := by
  induction tree using Json.induction with
  | array items ih =>
    rw [parts, List.mem_cons, mem_partsOfItems] at hvalue ⊢
    rcases hvalue with rfl | ⟨item, hitem, hvalue⟩
    · rwa [parts, List.mem_cons, mem_partsOfItems] at hpart
    · exact .inr ⟨item, hitem, ih item hitem hvalue⟩
  | object members ih =>
    rw [parts, List.mem_cons, mem_partsOfMembers] at hvalue ⊢
    rcases hvalue with rfl | ⟨m, hm, hvalue⟩
    · rwa [parts, List.mem_cons, mem_partsOfMembers] at hpart
    · exact .inr ⟨m, hm, ih m hm hvalue⟩
  | _ =>
    rw [parts, List.mem_singleton] at hvalue
    subst hvalue
    exact hpart

theorem mem_parts_of_mem_array {items : List Json} (h : .array items ∈ tree.parts) {item : Json}
    (hitem : item ∈ items) : item ∈ tree.parts := by
  refine mem_parts_trans ?_ h
  rw [parts, List.mem_cons, mem_partsOfItems]
  exact .inr ⟨item, hitem, mem_parts_self item⟩

theorem mem_parts_of_mem_object {members : List (String × Json)} (h : .object members ∈ tree.parts)
    {m : String × Json} (hm : m ∈ members) : m.2 ∈ tree.parts := by
  refine mem_parts_trans ?_ h
  rw [parts, List.mem_cons, mem_partsOfMembers]
  exact .inr ⟨m, hm, mem_parts_self m.2⟩

theorem mem_parts_of_member? (h : value ∈ tree.parts) {key : String} {member : Json}
    (hmember : value.member? key = some member) : member ∈ tree.parts := by
  cases value with
  | object members => exact mem_parts_of_mem_object h (Keyed.mem_of_get?_eq_some hmember)
  | _ => cases hmember

/-! ### Pointers -/

theorem mem_parts_of_stepInto? (h : value ∈ tree.parts) {step : List Char} {next : Json}
    (hstep : stepInto? value step = some next) : next ∈ tree.parts := by
  cases value with
  | object members => exact mem_parts_of_mem_object h (Keyed.mem_of_get?_eq_some hstep)
  | array items =>
    obtain ⟨i, -, hi⟩ := Option.bind_eq_some_iff.mp hstep
    exact mem_parts_of_mem_array h (List.mem_of_getElem? hi)
  | _ => cases hstep

theorem mem_parts_of_steps {steps : List (List Char)} {target : Json} (h : value ∈ tree.parts)
    (hsteps : steps.foldlM stepInto? value = some target) : target ∈ tree.parts := by
  induction steps generalizing value with
  | nil =>
    cases hsteps
    exact h
  | cons step steps ih =>
    rw [List.foldlM_cons] at hsteps
    obtain ⟨next, hnext, hsteps⟩ := Option.bind_eq_some_iff.mp hsteps
    exact ih (mem_parts_of_stepInto? h hnext) hsteps

/-- What a pointer names is in the tree. -/
theorem mem_parts_of_pointer? {pointer : List Char} {target : Json}
    (h : tree.pointer? pointer = some target) : target ∈ tree.parts := by
  obtain ⟨steps, -, h⟩ := Option.bind_eq_some_iff.mp h
  exact mem_parts_of_steps (mem_parts_self tree) h

/-! ### Records and maps -/

/-- The fields of a record are in the tree. -/
theorem mem_parts_of_record? (h : value ∈ tree.parts) {fields : List Field}
    {record : List (String × Json)} (hrecord : value.record? fields = some record)
    {m : String × Json} (hm : m ∈ record) : m.2 ∈ tree.parts := by
  cases value with
  | object members => exact mem_parts_of_mem_object h (mem_of_fieldsOfMembers hrecord hm)
  | array items => exact mem_parts_of_mem_array h (mem_of_fieldsOfItems hrecord hm)
  | _ => cases hrecord

/-- An entry of a map is read from a value of the tree. -/
theorem exists_part_of_mem_map? {β : Type} (h : value ∈ tree.parts) {decode : Json → Option β}
    {entries : List (String × β)} (hmap : map? decode value = some entries) {entry : String × β}
    (hentry : entry ∈ entries) : ∃ inner ∈ tree.parts, decode inner = some entry.2 := by
  obtain ⟨members, inner, rfl, hinner, hdecode⟩ := exists_of_mem_map? hmap hentry
  exact ⟨inner, mem_parts_of_mem_object h hinner, hdecode⟩

end TypedClients.Json
