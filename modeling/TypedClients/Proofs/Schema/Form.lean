import Mathlib.Logic.Relation
import TypedClients.Schema.Basic

/-!
# The keyword that gives a schema its shape

Of the keywords of a schema one decides its shape: `anyOf` before `oneOf`, both before `type`, and
a schema without any of them is an object if it describes members. `form` says which, and `Visits`
which of the schemas inside are looked at for it. A schema inside is smaller, so a property of all
schemas is proved from that of the visited ones (`visits_induction`).

## What it is for

The conversion tests keywords in an order, with a case inside a case. `form` has these tests once,
and everything that is proved of the conversion, of validity and of places goes by the form. What a
schema has besides, such as properties beside `anyOf`, is not visited and has no part in its shape.
-/

namespace TypedClients

/-- The types of a set. -/
def TypeSet.names : TypeSet → List TypeName
  | .one type => [type]
  | .several types => types

namespace Schema

/-- The title, if there is one. -/
def title? : Schema → Option String
  | .ref _ => none
  | .inline _ title _ _ _ _ _ _ _ _ _ => title

/-- The schemas of the declared properties. -/
def properties : Schema → List (String × Schema)
  | .ref _ => []
  | .inline _ _ properties _ _ _ _ _ _ _ _ => properties

/-- The names of the members that must be there. -/
def required : Schema → List String
  | .ref _ => []
  | .inline _ _ _ required _ _ _ _ _ _ _ => required

/-- The value of `additionalProperties`. -/
def additionalProperties? : Schema → Option Additional
  | .ref _ => none
  | .inline _ _ _ _ additional _ _ _ _ _ _ => additional

/-- The schema of the items of an array. -/
def items? : Schema → Option Schema
  | .ref _ => none
  | .inline _ _ _ _ _ items _ _ _ _ _ => items

/-- The schema of the members outside the properties, where it constrains them. -/
def values? (schema : Schema) : Option Schema :=
  match schema.additionalProperties? with
  | some (.schema values) => if values.isUntyped then none else some values
  | some (.flag _) => none
  | none => none

/-- What gives a schema its shape. -/
inductive Form where
  | reference (path : String)
  /-- `allOf`, which has no shape. -/
  | refused
  | choice (members : List Schema)
  | typed (types : TypeSet)
  | untyped

/-- The types that a value can be of: those that are named, else objects if there are properties
or the members outside them are constrained. -/
def typesOf? (type : Option TypeSet) (properties : List (String × Schema))
    (additional : Option Additional) : Option TypeSet :=
  match type with
  | some types => some types
  | none =>
    if !properties.isEmpty || additional.any Additional.isTyped then some (.one .object) else none

/-- The keyword that decides. -/
def form : Schema → Form
  | .ref path => .reference path
  | .inline type _ properties _ additional _ allOf oneOf anyOf _ _ =>
    if !allOf.isEmpty then .refused
    else if !anyOf.isEmpty then .choice anyOf
    else if !oneOf.isEmpty then .choice oneOf
    else
      match typesOf? type properties additional with
      | some types => .typed types
      | none => .untyped

/-- `part` stands in a place of `schema` that its shape as one of its types depends on. -/
inductive VisitsAs (schema part : Schema) : TypeName → Prop
  | items (items : schema.items? = some part) : VisitsAs schema part .array
  | property {key : String} (mem : (key, part) ∈ schema.properties) : VisitsAs schema part .object
  | value (values : schema.values? = some part) : VisitsAs schema part .object

/-- `part` stands in a place of `schema` that its shape depends on. -/
inductive Visits (schema part : Schema) : Prop
  | member {members : List Schema} (form : schema.form = .choice members) (mem : part ∈ members)
  | typed {types : TypeSet} {type : TypeName} (form : schema.form = .typed types)
      (mem : type ∈ types.names) (visit : schema.VisitsAs part type)

theorem sizeOf_lt_of_mem_properties {schema part : Schema} {key : String}
    (h : (key, part) ∈ schema.properties) : sizeOf part < sizeOf schema := by
  cases schema with
  | ref path => cases h
  | inline type title properties required additional items allOf oneOf anyOf defs definitions =>
    have hlt := List.sizeOf_lt_of_mem (show (key, part) ∈ properties from h)
    simp only [Prod.mk.sizeOf_spec] at hlt
    simp only [inline.sizeOf_spec]
    omega

theorem sizeOf_lt_of_items? {schema part : Schema} (h : schema.items? = some part) :
    sizeOf part < sizeOf schema := by
  cases schema with
  | ref path => cases h
  | inline type title properties required additional items allOf oneOf anyOf defs definitions =>
    obtain rfl : items = some part := h
    simp only [inline.sizeOf_spec, Option.some.sizeOf_spec]
    omega

theorem additional_of_values? {schema part : Schema} (h : schema.values? = some part) :
    schema.additionalProperties? = some (.schema part) ∧ part.isUntyped = false := by
  unfold values? at h
  split at h
  · next values hvalues =>
    split at h
    · cases h
    · next huntyped =>
      cases h
      exact ⟨hvalues, by simpa using huntyped⟩
  · cases h
  · cases h

theorem sizeOf_lt_of_values? {schema part : Schema} (h : schema.values? = some part) :
    sizeOf part < sizeOf schema := by
  have hadditional := (additional_of_values? h).1
  cases schema with
  | ref path => cases hadditional
  | inline type title properties required additional items allOf oneOf anyOf defs definitions =>
    obtain rfl : additional = some (.schema part) := hadditional
    simp only [inline.sizeOf_spec, Option.some.sizeOf_spec, Additional.schema.sizeOf_spec]
    omega

theorem sizeOf_lt_of_mem_choice {schema part : Schema} {members : List Schema}
    (hform : schema.form = .choice members) (hmem : part ∈ members) :
    sizeOf part < sizeOf schema := by
  cases schema with
  | ref path => cases hform
  | inline type title properties required additional items allOf oneOf anyOf defs definitions =>
    have hlt := List.sizeOf_lt_of_mem hmem
    have hmembers : members = anyOf ∨ members = oneOf := by
      simp only [form] at hform
      split at hform
      · cases hform
      split at hform
      · exact .inl (Form.choice.inj hform).symm
      split at hform
      · exact .inr (Form.choice.inj hform).symm
      split at hform <;> cases hform
    simp only [inline.sizeOf_spec]
    rcases hmembers with rfl | rfl <;> omega

/-- A visited schema is smaller than the one it stands in. -/
theorem Visits.sizeOf_lt {schema part : Schema} (h : schema.Visits part) :
    sizeOf part < sizeOf schema := by
  cases h with
  | member form mem => exact sizeOf_lt_of_mem_choice form mem
  | typed _ _ visit =>
    cases visit with
    | items items => exact sizeOf_lt_of_items? items
    | property mem => exact sizeOf_lt_of_mem_properties mem
    | value values => exact sizeOf_lt_of_values? values

/-- `part` is the schema itself or stands in it, at any depth, in a place that its shape depends
on. -/
def Includes : Schema → Schema → Prop :=
  Relation.ReflTransGen Visits

/-- The reference stands in the schema, at any depth, in a place that its shape depends on. -/
def Refers (schema : Schema) (path : String) : Prop :=
  ∃ part, schema.Includes part ∧ part.form = .reference path

theorem Refers.visits {schema part : Schema} {path : String} (visit : schema.Visits part)
    (h : part.Refers path) : schema.Refers path := by
  obtain ⟨inner, hinner, hform⟩ := h
  exact ⟨inner, .head visit hinner, hform⟩

/-- What holds of a schema whenever it holds of those visited in it holds of every schema. -/
theorem visits_induction {P : Schema → Prop}
    (step : ∀ schema, (∀ part, schema.Visits part → P part) → P schema) (schema : Schema) :
    P schema :=
  step schema fun part visit =>
    have : sizeOf part < sizeOf schema := visit.sizeOf_lt
    visits_induction step part
termination_by sizeOf schema

end Schema

end TypedClients
