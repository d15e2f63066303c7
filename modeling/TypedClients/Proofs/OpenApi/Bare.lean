import TypedClients.Proofs.Json.Tree
import TypedClients.Proofs.Outcome
import TypedClients.Proofs.Schema.Fields

/-!
# What is read of a document

The kinds of objects that a document is made of, with the fields that are read of each. `bare` takes
everything else out of a tree: the other members of every object that is read as one of a kind, and
whatever stands beside a reference. What is read by fields is read of the bare object all the same
(`record?_bare`, `refOfJson?_bare`).

## How it is laid out

A document is made of objects of a few kinds (`Kind`). For each kind there is a list of fields, and
for each field a place: what kind of object stands there, one, a list or a map, or something that is
kept as it is. `bare` is one recursion for all kinds, and `record_bind_bare` one lemma for all
decoders of records. If a field is added to a decoder, it is added to its kind, and the lemma about
that decoder has to be looked at.
-/

namespace TypedClients.OpenApi

/-- What an object of a document is read as. -/
inductive Kind where
  | document
  | info
  | pathItem
  | operation
  | parameter
  /-- The body of a request or a response. -/
  | body
  | mediaType
  | schema
  deriving DecidableEq

/-- How a value is read: without looking for objects of a kind in it, as such an object, or as a list
or a map of them. -/
inductive Place where
  | leaf
  | one (kind : Kind)
  | list (kind : Kind)
  | map (kind : Kind)
  deriving DecidableEq

namespace Kind

/-- The fields that are read of an object, in the order of the array form. Of a path item they are
the shared parameters and the operations. -/
def fields : Kind → List (String × Place)
  | document => [("openapi", .leaf), ("info", .one info), ("paths", .map pathItem)]
  | info => [("title", .leaf)]
  | pathItem =>
    [("parameters", .list parameter), ("get", .one operation), ("post", .one operation),
     ("put", .one operation), ("patch", .one operation), ("delete", .one operation)]
  | operation =>
    [("operationId", .leaf), ("summary", .leaf), ("tags", .leaf), ("parameters", .list parameter),
     ("requestBody", .one body), ("responses", .map body)]
  | parameter => [("name", .leaf), ("in", .leaf), ("required", .leaf), ("schema", .one schema)]
  | body => [("content", .map mediaType)]
  | mediaType => [("schema", .one schema)]
  | schema =>
    [("type", .leaf), ("title", .leaf), ("properties", .map schema), ("required", .leaf),
     ("additionalProperties", .one schema), ("items", .one schema), ("allOf", .list schema),
     ("oneOf", .list schema), ("anyOf", .list schema), ("$defs", .map schema),
     ("definitions", .map schema)]

/-- How the value under a field is read. -/
def place (kind : Kind) (name : String) : Place :=
  (Keyed.get? name kind.fields).getD .leaf

/-- Whether the member under a key is read. -/
def reads (kind : Kind) (key : String) : Bool :=
  decide (key ∈ Keyed.keys kind.fields)

/-- Whether a reference may stand for the object. -/
def canRefer : Kind → Bool
  | parameter | body | schema => true
  | _ => false

/-- The reference that stands for an object of the kind, if one does. -/
def refPath? (kind : Kind) (members : List (String × Json)) : Option String :=
  if kind.canRefer then Json.refPath? members else none

end Kind

mutual

/-- The tree without what is not read of it. -/
def bare (place : Place) : Json → Json
  | .object members =>
    match place with
    | .one kind =>
      match kind.refPath? members with
      | some path => .object [("$ref", .string path)]
      | none => .object (bareMembers kind members)
    | .map kind => .object (bareValues kind members)
    | _ => .object members
  | .array items =>
    match place with
    | .one kind => .array (barePositions (kind.fields.map Prod.snd) items)
    | .list kind => .array (bareItems kind items)
    | _ => .array items
  | .null => .null
  | .bool b => .bool b
  | .number literal => .number literal
  | .string text => .string text

/-- The members of an object of the kind that are read. -/
def bareMembers (kind : Kind) : List (String × Json) → List (String × Json)
  | [] => []
  | (key, value) :: rest =>
    if kind.reads key then (key, bare (kind.place key) value) :: bareMembers kind rest
    else bareMembers kind rest

/-- The fields of an object in the array form. -/
def barePositions (places : List Place) : List Json → List Json
  | [] => []
  | item :: rest => bare (places.head?.getD .leaf) item :: barePositions places.tail rest

/-- The objects of a list. -/
def bareItems (kind : Kind) : List Json → List Json
  | [] => []
  | item :: rest => bare (.one kind) item :: bareItems kind rest

/-- The objects of a map. -/
def bareValues (kind : Kind) : List (String × Json) → List (String × Json)
  | [] => []
  | (key, value) :: rest => (key, bare (.one kind) value) :: bareValues kind rest

end

/-- The fields of an object, each with what is read of its value. -/
def Kind.bareRecord (kind : Kind) (record : List (String × Json)) : List (String × Json) :=
  record.map fun m => (m.1, bare (kind.place m.1) m.2)

variable {kind : Kind} {place : Place} {value : Json}

@[simp] theorem bare_leaf (value : Json) : bare .leaf value = value := by
  cases value <;> simp [bare]

theorem bareMembers_eq (kind : Kind) (members : List (String × Json)) :
    bareMembers kind members
      = kind.bareRecord (members.filter fun m => kind.reads m.1) := by
  induction members with
  | nil => rfl
  | cons m members ih =>
    rw [bareMembers, ih, List.filter_cons]
    by_cases h : kind.reads m.1 = true
    · simp [h, Kind.bareRecord]
    · simp [h]

theorem bareItems_eq_map (kind : Kind) (items : List Json) :
    bareItems kind items = items.map (bare (.one kind)) := by
  induction items with
  | nil => rfl
  | cons item items ih => rw [bareItems, ih, List.map_cons]

theorem bareValues_eq_map (kind : Kind) (members : List (String × Json)) :
    bareValues kind members = members.map fun m => (m.1, bare (.one kind) m.2) := by
  induction members with
  | nil => rfl
  | cons m members ih => rw [bareValues, ih, List.map_cons]

theorem length_barePositions (places : List Place) (items : List Json) :
    (barePositions places items).length = items.length := by
  induction items generalizing places with
  | nil => rfl
  | cons item items ih => rw [barePositions, List.length_cons, List.length_cons, ih]

theorem mem_barePositions {places : List Place} {items : List Json}
    (h : value ∈ barePositions places items) : ∃ place, ∃ item ∈ items, value = bare place item := by
  induction items generalizing places with
  | nil => cases h
  | cons item items ih =>
    rw [barePositions, List.mem_cons] at h
    rcases h with h | h
    · exact ⟨_, item, List.mem_cons_self, h⟩
    · obtain ⟨place, x, hx, h⟩ := ih h
      exact ⟨place, x, List.mem_cons_of_mem _ hx, h⟩

theorem barePositions_leaf {places : List Place} (h : ∀ place ∈ places, place = .leaf)
    (items : List Json) : barePositions places items = items := by
  induction items generalizing places with
  | nil => rfl
  | cons item items ih =>
    have hhead : places.head?.getD .leaf = .leaf := by
      cases places with
      | nil => rfl
      | cons place places => exact h place List.mem_cons_self
    rw [barePositions, hhead, bare_leaf, ih fun place hplace => h place (List.mem_of_mem_tail hplace)]

/-- Every field is read as its kind says. -/
theorem Kind.place_of_mem {field : String × Place} (h : field ∈ kind.fields) :
    kind.place field.1 = field.2 := by
  have hall : ∀ kind : Kind, ∀ field ∈ kind.fields, kind.place field.1 = field.2 := by
    intro kind
    cases kind <;> decide
  exact hall kind field h

theorem zip_barePositions {fields : List (String × Place)}
    (h : ∀ field ∈ fields, kind.place field.1 = field.2) (items : List Json) :
    (fields.map Prod.fst).zip (barePositions (fields.map Prod.snd) items)
      = kind.bareRecord ((fields.map Prod.fst).zip items) := by
  induction fields generalizing items with
  | nil => rfl
  | cons field fields ih =>
    cases items with
    | nil => rfl
    | cons item items =>
      have hfield := h field List.mem_cons_self
      have hrest := ih (fun f hf => h f (List.mem_cons_of_mem _ hf)) items
      simp only [Kind.bareRecord] at hrest ⊢
      simp only [barePositions, List.map_cons, List.zip_cons_cons, List.head?_cons, List.tail_cons,
        Option.getD_some, hrest, hfield]

/-! ### Records -/

theorem keys_bareRecord (record : List (String × Json)) :
    (kind.bareRecord record).map Prod.fst = record.map Prod.fst := by
  rw [Kind.bareRecord, List.map_map]
  rfl

theorem filter_bareRecord (keeps : String → Bool) (record : List (String × Json)) :
    (kind.bareRecord record).filter (fun m => keeps m.1)
      = kind.bareRecord (record.filter fun m => keeps m.1) := by
  rw [Kind.bareRecord, List.filter_map]
  rfl

/-- The fields of a bare object are those of the object, each with what is read of it. -/
theorem record?_bare {fields : List Json.Field}
    (hfields : fields.map Json.Field.name = Keyed.keys kind.fields)
    (hvalue : ∀ members, value = .object members → kind.refPath? members = none) :
    (bare (.one kind) value).record? fields = (value.record? fields).map kind.bareRecord := by
  cases value with
  | object members =>
    have hknown : ∀ key, (fields.any fun f => f.name == key) = kind.reads key := by
      intro key
      rw [Kind.reads, ← hfields, Bool.eq_iff_iff]
      simp only [List.any_eq_true, beq_iff_eq, decide_eq_true_eq, List.mem_map]
    rw [bare, hvalue members rfl]
    simp only [Json.record?, Json.fieldsOfMembers, hknown, bareMembers_eq,
      filter_bareRecord kind.reads, List.filter_filter, keys_bareRecord, Bool.and_self]
    split <;> rfl
  | array items =>
    have hzip := @zip_barePositions kind kind.fields (fun _ => Kind.place_of_mem) items
    rw [bare]
    simp only [Json.record?, Json.fieldsOfItems, hfields, length_barePositions]
    rw [Keyed.keys, hzip]
    split <;> rfl
  | _ => rfl

theorem get?_bareRecord (name : String) (record : List (String × Json)) :
    Keyed.get? name (kind.bareRecord record)
      = (Keyed.get? name record).map (bare (kind.place name)) :=
  Keyed.get?_map (fun name => bare (kind.place name)) name record

/-- A value that nothing is inside of. -/
def isScalar : Json → Bool
  | .array _ => false
  | .object _ => false
  | _ => true

theorem bare_eq_iff {scalar : Json} (h : isScalar scalar = true) :
    bare place value = scalar ↔ value = scalar := by
  cases value with
  | object members =>
    have hne : ∀ members, Json.object members ≠ scalar := by
      rintro members rfl
      cases h
    cases place with
    | one kind =>
      rw [bare]
      split <;> exact iff_of_false (hne _) (hne _)
    | _ => exact iff_of_false (hne _) (hne _)
  | array items =>
    have hne : ∀ items, Json.array items ≠ scalar := by
      rintro items rfl
      cases h
    cases place <;> exact iff_of_false (hne _) (hne _)
  | _ => rw [bare]

section Fields

variable {β : Type} {decode : Json → Option β} {name : String} {record : List (String × Json)}

theorem required?_bareRecord
    (h : ∀ x, Keyed.get? name record = some x → decode (bare (kind.place name) x) = decode x) :
    Json.required? name decode (kind.bareRecord record) = Json.required? name decode record := by
  rw [Json.required?, Json.required?, get?_bareRecord]
  cases hget : Keyed.get? name record with
  | none => rfl
  | some x => exact h x hget

theorem defaulted?_bareRecord {start : β}
    (h : ∀ x, Keyed.get? name record = some x → decode (bare (kind.place name) x) = decode x) :
    Json.defaulted? name start decode (kind.bareRecord record)
      = Json.defaulted? name start decode record := by
  rw [Json.defaulted?, Json.defaulted?, get?_bareRecord]
  cases hget : Keyed.get? name record with
  | none => rfl
  | some x => exact h x hget

theorem optional?_bareRecord
    (h : ∀ x, Keyed.get? name record = some x → decode (bare (kind.place name) x) = decode x) :
    Json.optional? name decode (kind.bareRecord record) = Json.optional? name decode record := by
  have hget' := @get?_bareRecord kind name record
  cases hget : Keyed.get? name record with
  | none =>
    rw [hget] at hget'
    rw [Json.optional?, Json.optional?, hget', hget]
    rfl
  | some x =>
    rw [hget, Option.map_some] at hget'
    by_cases hx : x = .null
    · subst hx
      rw [(bare_eq_iff rfl).mpr rfl] at hget'
      rw [Json.optional?, Json.optional?, hget', hget]
    · rw [Json.optional?_of_present hget' (mt (bare_eq_iff rfl).mp hx), Json.optional?_of_present hget hx,
        h x hget]

theorem decode_leaf (h : kind.place name = .leaf) (x : Json) :
    decode (bare (kind.place name) x) = decode x := by
  rw [h, bare_leaf]

theorem list?_bare
    (h : ∀ items, value = .array items → ∀ item ∈ items, decode (bare (.one kind) item) = decode item) :
    Json.list? decode (bare (.list kind) value) = Json.list? decode value := by
  cases value with
  | array items =>
    rw [bare, Json.list?, Json.list?, bareItems_eq_map, List.mapM_map]
    exact mapM_congr_left fun item hitem => h items rfl item hitem
  | _ => rfl

/-- A map whose values are changed by taking out what is not read. -/
theorem map?_bare_map {f : β → β}
    (h : ∀ members, value = .object members →
      ∀ m ∈ members, decode (bare (.one kind) m.2) = (decode m.2).map f) :
    Json.map? decode (bare (.map kind) value)
      = (Json.map? decode value).map (List.map fun entry => (entry.1, f entry.2)) := by
  cases value with
  | object members =>
    have hentry : ∀ m ∈ members,
        (decode (bare (.one kind) m.2)).map (fun v => (m.1, v))
          = ((decode m.2).map fun v => (m.1, v)).map fun entry => (entry.1, f entry.2) := by
      intro m hm
      rw [h members rfl m hm, Option.map_map, Option.map_map]
      rfl
    rw [bare, Json.map?, Json.map?, bareValues_eq_map, List.mapM_map]
    show ((members.mapM fun m => (decode (bare (.one kind) m.2)).map fun v => (m.1, v)).map
      Keyed.ofList) = _
    rw [mapM_congr_left hentry, mapM_option_map, Option.map_map, Option.map_map]
    exact congrArg (Option.map · _) (funext fun entries => Keyed.ofList_map f entries)
  | _ => rfl

theorem map?_bare
    (h : ∀ members, value = .object members →
      ∀ m ∈ members, decode (bare (.one kind) m.2) = decode m.2) :
    Json.map? decode (bare (.map kind) value) = Json.map? decode value := by
  have hmap := @map?_bare_map kind value β decode id fun members hmembers m hm => by
    rw [h members hmembers m hm, Option.map_id, id]
  rw [hmap]
  exact (congrArg (Option.map · _) (funext List.map_id)).trans Option.map_id'

/-- A decoder of records gives for a bare object what it gives for the object, if it reads the bare
fields alike and no reference stands for the object. -/
theorem record_bind_bare {fields : List Json.Field} {decode : List (String × Json) → Option β}
    (hfields : fields.map Json.Field.name = Keyed.keys kind.fields)
    (hvalue : kind.canRefer = true → refOfJson? value = none)
    (h : ∀ record, value.record? fields = some record →
      decode (kind.bareRecord record) = decode record) :
    ((bare (.one kind) value).record? fields).bind decode = (value.record? fields).bind decode := by
  have hinline : ∀ members, value = .object members → kind.refPath? members = none := by
    rintro members rfl
    rw [Kind.refPath?]
    split
    · next hrefer => exact hvalue hrefer
    · rfl
  rw [record?_bare hfields hinline]
  cases hrecord : value.record? fields with
  | none => rfl
  | some record => exact h record hrecord

end Fields

/-- A reference is read of a bare object if it is read of the object, and is the same. -/
theorem refOfJson?_bare (h : kind.canRefer = true) :
    refOfJson? (bare (.one kind) value) = refOfJson? value := by
  have hfree : ∀ kind : Kind, "$ref" ∉ Keyed.keys kind.fields := by
    intro kind
    cases kind <;> decide
  cases value with
  | object members =>
    rw [bare, Kind.refPath?, if_pos h]
    cases href : Json.refPath? members with
    | some path => exact href.symm
    | none =>
      have hnone : (members.filter fun m => (m.1 == "$ref") && kind.reads m.1) = [] := by
        rw [List.filter_eq_nil_iff]
        intro m _ hm
        rw [Bool.and_eq_true, beq_iff_eq] at hm
        rw [hm.1] at hm
        exact hfree kind (of_decide_eq_true hm.2)
      show Json.refPath? (bareMembers kind members) = Json.refPath? members
      rw [href, bareMembers_eq, Json.refPath?, filter_bareRecord (· == "$ref"),
        List.filter_filter, hnone]
      rfl
  | _ => rfl

end TypedClients.OpenApi
