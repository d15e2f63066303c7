import TypedClients.Endpoint.Collection
import TypedClients.Proofs.OpenApi.Bare

/-!
# Bare documents are decoded alike

Every decoder gives for a bare object what it gives for the object. A schema can have schemas inside,
so for schemas this is shown by induction on the tree, for all three ways in which a value under a
keyword is read (`schema_bare`); for the other kinds it follows from what is shown of the kinds inside.

## How it is proved

For each kind: the decoder asks for the fields one by one, and each field is read alike of both
objects. What a field may hold is decoded by the lemma of its kind. So the lemmas stand in the order
in which the kinds are inside each other, schemas first and operations last.
-/

namespace TypedClients.OpenApi

open Json (optional? defaulted? required? list? map?)

/-! ### Schemas -/

theorem additionalOfJson?_bare {value : Json}
    (h : Schema.ofJson? (bare (.one .schema) value) = Schema.ofJson? value) :
    Schema.additionalOfJson? (bare (.one .schema) value) = Schema.additionalOfJson? value := by
  have hschema : ∀ x : Json, (∀ b, x ≠ .bool b) →
      Schema.additionalOfJson? x = (Schema.ofJson? x).map Additional.schema := by
    intro x hx
    cases x with
    | bool b => exact absurd rfl (hx b)
    | _ => rfl
  by_cases hbool : ∃ b, value = .bool b
  · obtain ⟨b, rfl⟩ := hbool
    rfl
  · rw [not_exists] at hbool
    rw [hschema value hbool, hschema _ fun b => mt (bare_eq_iff rfl).mp (hbool b), h]

/-- The fields of a schema are read alike where the schemas under them are. -/
theorem ofFields?_bareRecord {record : List (String × Json)}
    (hone : ∀ m ∈ record, Schema.ofJson? (bare (.one .schema) m.2) = Schema.ofJson? m.2)
    (hlist : ∀ m ∈ record,
      list? Schema.ofJson? (bare (.list .schema) m.2) = list? Schema.ofJson? m.2)
    (hmap : ∀ m ∈ record,
      map? Schema.ofJson? (bare (.map .schema) m.2) = map? Schema.ofJson? m.2) :
    Schema.ofFields? (Kind.schema.bareRecord record) = Schema.ofFields? record := by
  have hlists : ∀ name, Kind.schema.place name = .list .schema →
      defaulted? name [] (list? Schema.ofJson?) (Kind.schema.bareRecord record)
        = defaulted? name [] (list? Schema.ofJson?) record := by
    intro name hplace
    refine defaulted?_bareRecord fun x hx => ?_
    rw [hplace]
    exact hlist _ (Keyed.mem_of_get?_eq_some hx)
  have hmaps : ∀ name, Kind.schema.place name = .map .schema →
      defaulted? name [] (map? Schema.ofJson?) (Kind.schema.bareRecord record)
        = defaulted? name [] (map? Schema.ofJson?) record := by
    intro name hplace
    refine defaulted?_bareRecord fun x hx => ?_
    rw [hplace]
    exact hmap _ (Keyed.mem_of_get?_eq_some hx)
  have hitems : optional? "items" Schema.ofJson? (Kind.schema.bareRecord record)
      = optional? "items" Schema.ofJson? record :=
    optional?_bareRecord fun x hx => hone _ (Keyed.mem_of_get?_eq_some hx)
  have hadditional : optional? "additionalProperties" Schema.additionalOfJson?
        (Kind.schema.bareRecord record)
      = optional? "additionalProperties" Schema.additionalOfJson? record :=
    optional?_bareRecord fun x hx => additionalOfJson?_bare (hone _ (Keyed.mem_of_get?_eq_some hx))
  rw [Schema.ofFields?, Schema.ofFields?, optional?_bareRecord fun x _ => decode_leaf rfl x,
    optional?_bareRecord fun x _ => decode_leaf rfl x, hmaps "properties" rfl,
    defaulted?_bareRecord fun x _ => decode_leaf rfl x, hadditional, hitems, hlists "allOf" rfl,
    hlists "oneOf" rfl, hlists "anyOf" rfl, hmaps "$defs" rfl, hmaps "definitions" rfl]

theorem schema_bare_of_fields {value : Json}
    (h : ∀ record, value.record? Schema.fields = some record →
      Schema.ofFields? (Kind.schema.bareRecord record) = Schema.ofFields? record) :
    Schema.ofJson? (bare (.one .schema) value) = Schema.ofJson? value := by
  rw [Schema.ofJson?_eq, Schema.ofJson?_eq, refOfJson?_bare rfl]
  cases href : refOfJson? value with
  | some path => rfl
  | none => exact record_bind_bare rfl (fun _ => href) h

theorem schema_bare (value : Json) :
    Schema.ofJson? (bare (.one .schema) value) = Schema.ofJson? value ∧
      list? Schema.ofJson? (bare (.list .schema) value) = list? Schema.ofJson? value ∧
      map? Schema.ofJson? (bare (.map .schema) value) = map? Schema.ofJson? value := by
  induction value using Json.induction with
  | array items ih =>
    refine ⟨schema_bare_of_fields fun record hrecord => ?_, ?_, rfl⟩
    · have ih : ∀ m ∈ record, _ := fun m hm => ih m.2 (Json.mem_of_fieldsOfItems hrecord hm)
      exact ofFields?_bareRecord (fun m hm => (ih m hm).1) (fun m hm => (ih m hm).2.1)
        fun m hm => (ih m hm).2.2
    · refine list?_bare fun _ heq item hitem => ?_
      cases heq
      exact (ih item hitem).1
  | object members ih =>
    refine ⟨schema_bare_of_fields fun record hrecord => ?_, rfl, ?_⟩
    · have ih : ∀ m ∈ record, _ := fun m hm => ih m (Json.mem_of_fieldsOfMembers hrecord hm)
      exact ofFields?_bareRecord (fun m hm => (ih m hm).1) (fun m hm => (ih m hm).2.1)
        fun m hm => (ih m hm).2.2
    · refine map?_bare fun _ heq m hm => ?_
      cases heq
      exact (ih m hm).1
  | _ => exact ⟨rfl, rfl, rfl⟩

/-! ### Operations -/

theorem optional_schema_bareRecord {kind : Kind} (hplace : kind.place "schema" = .one .schema)
    (record : List (String × Json)) :
    optional? "schema" Schema.ofJson? (kind.bareRecord record)
      = optional? "schema" Schema.ofJson? record := by
  refine optional?_bareRecord fun x _ => ?_
  rw [hplace]
  exact (schema_bare x).1

theorem parameterItem_bare (value : Json) :
    ParameterItem.ofJson? (bare (.one .parameter) value) = ParameterItem.ofJson? value := by
  rw [ParameterItem.ofJson?, ParameterItem.ofJson?, refOfJson?_bare rfl]
  cases href : refOfJson? value with
  | some path => rfl
  | none =>
    refine congrArg (Option.map ParameterItem.inline) ?_
    refine record_bind_bare rfl (fun _ => href) fun record _ => ?_
    rw [required?_bareRecord fun x _ => decode_leaf rfl x,
      required?_bareRecord fun x _ => decode_leaf rfl x,
      defaulted?_bareRecord fun x _ => decode_leaf rfl x, optional_schema_bareRecord rfl]

theorem mediaType_bare (value : Json) :
    mediaTypeOfJson? (bare (.one .mediaType) value) = mediaTypeOfJson? value := by
  refine record_bind_bare rfl (fun h => by cases h) fun record _ => ?_
  exact optional_schema_bareRecord rfl record

theorem body_bare (value : Json) :
    Body.ofJson? (bare (.one .body) value) = Body.ofJson? value := by
  rw [Body.ofJson?, Body.ofJson?, refOfJson?_bare rfl]
  cases href : refOfJson? value with
  | some path => rfl
  | none =>
    refine record_bind_bare rfl (fun _ => href) fun record _ => ?_
    rw [defaulted?_bareRecord fun x _ => map?_bare fun _ _ m _ => mediaType_bare m.2]

theorem operation_bare (value : Json) :
    Operation.ofJson? (bare (.one .operation) value) = Operation.ofJson? value := by
  refine record_bind_bare rfl (fun h => by cases h) fun record _ => ?_
  rw [optional?_bareRecord fun x _ => decode_leaf rfl x,
    optional?_bareRecord fun x _ => decode_leaf rfl x,
    defaulted?_bareRecord fun x _ => decode_leaf rfl x,
    defaulted?_bareRecord fun x _ => list?_bare fun _ _ item _ => parameterItem_bare item,
    optional?_bareRecord fun x _ => body_bare x,
    defaulted?_bareRecord fun x _ => map?_bare fun _ _ m _ => body_bare m.2]

end TypedClients.OpenApi
