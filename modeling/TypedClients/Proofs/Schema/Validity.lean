import Mathlib.Logic.ExistsUnique
import TypedClients.Json.Number
import TypedClients.Proofs.Conversion.Expansion

/-!
# Which values are valid for a schema

A schema is read as the conjunction of its keywords, references as `allows` reads them
(`Schema.ValidWith`). A converter gives the references their reading: that of an entity is a set of
values from outside, that of a definition is the definition's. As definitions may refer to each
other in circles, they are read to a depth, and a value is valid (`Converter.Valid`) if it is so to
every depth from some one on.

`allOf` is not read: a schema with it has no shape. A property is the first member under its key.

## What is read and what is not

The keywords are those that schemas keep. What is not kept, such as bounds and formats, could only
make fewer values valid, so a validator that accepts what is valid here accepts what is valid with
them. An integer is a number without decimals, however it is written.
-/

namespace TypedClients

/-! ### The types of values -/

namespace Json

/-- The parts of a number literal. -/
def literal? (text : String) : Option Literal :=
  let (negative, body) := match text.toList with
    | '-' :: rest => (true, rest)
    | _ => (false, text.toList)
  match readWhole false body with
  | .error _ => none
  | .ok (whole, rest) =>
    match readFraction false rest with
    | .error _ => none
    | .ok (fraction, rest) =>
      match readExponent false rest with
      | .error _ => none
      | .ok (exponent, _) => some ⟨negative, whole, fraction, exponent⟩

/-- The value is an integer: what the exponent leaves of the decimal places are zeros. -/
def Literal.IsInteger (literal : Literal) : Prop :=
  Nat.pow 10 (literal.fraction.length - literal.exponent).toNat ∣
    Text.decimalValue (literal.whole ++ literal.fraction)

end Json

/-- The value is of the type. -/
def TypeName.Allows (value : Json) : TypeName → Prop
  | .string => ∃ text, value = .string text
  | .number => ∃ text, value = .number text
  | .integer => ∃ text literal, value = .number text ∧ Json.literal? text = some literal ∧
      literal.IsInteger
  | .boolean => ∃ truth, value = .bool truth
  | .array => ∃ items, value = .array items
  | .object => ∃ members, value = .object members
  | .null => value = .null
  | .unsupported => False

/-! ### The keywords -/

namespace Schema

/-- The value is valid for every keyword of the schema. -/
def ValidWith (allows : String → Json → Prop) : Schema → Json → Prop
  | .ref path, value => allows path value
  | .inline type _ properties required additional items _ oneOf anyOf _ _, value =>
    (∀ types, typesOf? type properties additional = some types →
      ∃ name ∈ types.names, name.Allows value) ∧
    (∀ p, (_ : p ∈ properties) → ∀ member, value.member? p.1 = some member →
      ValidWith allows p.2 member) ∧
    (∀ members, value = .object members → ∀ key ∈ required, key ∈ Keyed.keys members) ∧
    (additional = some (.flag false) → ∀ members, value = .object members →
      ∀ entry ∈ members, entry.1 ∈ Keyed.keys properties) ∧
    (∀ values, (_ : additional = some (.schema values)) → ∀ members, value = .object members →
      ∀ entry ∈ members, entry.1 ∉ Keyed.keys properties → ValidWith allows values entry.2) ∧
    (∀ part, (_ : items = some part) → ∀ elements, value = .array elements →
      ∀ element ∈ elements, ValidWith allows part element) ∧
    (anyOf = [] ∨ ∃ part, ∃ _ : part ∈ anyOf, ValidWith allows part value) ∧
    (oneOf = [] ∨ ∃! i : Fin oneOf.length, ValidWith allows (oneOf.get i) value)
termination_by schema => sizeOf schema
decreasing_by
  · have hlt := List.sizeOf_lt_of_mem ‹p ∈ properties›
    obtain ⟨key, part⟩ := p
    simp only [Prod.mk.sizeOf_spec] at hlt
    simp only [inline.sizeOf_spec]
    omega
  · subst additional
    simp only [inline.sizeOf_spec, Option.some.sizeOf_spec, Additional.schema.sizeOf_spec]
    omega
  · subst items
    simp only [inline.sizeOf_spec, Option.some.sizeOf_spec]
    omega
  · have hlt := List.sizeOf_lt_of_mem ‹part ∈ anyOf›
    simp only [inline.sizeOf_spec]
    omega
  · have hlt := List.sizeOf_get oneOf i
    simp only [inline.sizeOf_spec]
    omega

variable {allows : String → Json → Prop} {schema part : Schema} {value : Json}

namespace ValidWith

/-- A value that is valid for a reference is one that the reference allows. -/
theorem reference {path : String} (form : schema.form = .reference path)
    (h : schema.ValidWith allows value) : allows path value := by
  cases schema with
  | ref other =>
    cases form
    rwa [ValidWith] at h
  | inline type title properties required additional items allOf oneOf anyOf defs definitions =>
    simp only [Schema.form] at form
    repeat' split at form
    all_goals cases form

/-- A value that is valid for a choice is so for one of its members. -/
theorem choice {members : List Schema} (form : schema.form = .choice members)
    (h : schema.ValidWith allows value) : ∃ part ∈ members, part.ValidWith allows value := by
  cases schema with
  | ref path => cases form
  | inline type title properties required additional items allOf oneOf anyOf defs definitions =>
    rw [ValidWith] at h
    obtain ⟨-, -, -, -, -, -, hany, hone⟩ := h
    simp only [Schema.form] at form
    split at form
    · cases form
    split at form
    · next hmembers =>
      obtain rfl := Form.choice.inj form
      rcases hany with rfl | ⟨part, hpart, hvalid⟩
      · cases hmembers
      · exact ⟨part, hpart, hvalid⟩
    split at form
    · next hmembers =>
      obtain rfl := Form.choice.inj form
      rcases hone with rfl | ⟨i, hvalid, -⟩
      · cases hmembers
      · exact ⟨oneOf.get i, List.get_mem oneOf i, hvalid⟩
    split at form <;> cases form

/-- A value that is valid for a typed schema is of one of the types. -/
theorem type {types : TypeSet} (form : schema.form = .typed types)
    (h : schema.ValidWith allows value) : ∃ type ∈ types.names, type.Allows value := by
  cases schema with
  | ref path => cases form
  | inline type title properties required additional items allOf oneOf anyOf defs definitions =>
    rw [ValidWith] at h
    simp only [Schema.form] at form
    split at form
    · cases form
    split at form
    · cases form
    split at form
    · cases form
    split at form
    · next htypes =>
      obtain rfl := Form.typed.inj form
      exact h.1 _ htypes
    · cases form

theorem property {key : String} {member : Json} (h : schema.ValidWith allows value)
    (declared : (key, part) ∈ schema.properties) (found : value.member? key = some member) :
    part.ValidWith allows member := by
  cases schema with
  | ref path => cases declared
  | inline type title properties required additional items allOf oneOf anyOf defs definitions =>
    rw [ValidWith] at h
    exact h.2.1 _ declared member found

theorem required {key : String} {members : List (String × Json)}
    (h : schema.ValidWith allows (.object members)) (mem : key ∈ schema.required) :
    key ∈ Keyed.keys members := by
  cases schema with
  | ref path => cases mem
  | inline type title properties required additional items allOf oneOf anyOf defs definitions =>
    rw [ValidWith] at h
    exact h.2.2.1 members rfl key mem

theorem others {members : List (String × Json)} {entry : String × Json}
    (h : schema.ValidWith allows (.object members)) (values : schema.values? = some part)
    (mem : entry ∈ members) (other : entry.1 ∉ Keyed.keys schema.properties) :
    part.ValidWith allows entry.2 := by
  have hadditional := (additional_of_values? values).1
  cases schema with
  | ref path => cases hadditional
  | inline type title properties required additional items allOf oneOf anyOf defs definitions =>
    rw [ValidWith] at h
    exact h.2.2.2.2.1 part hadditional members rfl entry mem other

theorem item {elements : List Json} {element : Json}
    (h : schema.ValidWith allows (.array elements)) (items : schema.items? = some part)
    (mem : element ∈ elements) : part.ValidWith allows element := by
  cases schema with
  | ref path => cases items
  | inline type title properties required additional items allOf oneOf anyOf defs definitions =>
    rw [ValidWith] at h
    exact h.2.2.2.2.2.1 part items elements rfl element mem

end ValidWith

/-- Every keyword that an untyped schema can have leaves `null` alone. -/
theorem validWith_null_of_untyped (form : schema.form = .untyped) :
    schema.ValidWith allows .null := by
  cases schema with
  | ref path => cases form
  | inline type title properties required additional items allOf oneOf anyOf defs definitions =>
    simp only [Schema.form] at form
    split at form
    · cases form
    split at form
    · cases form
    next hany =>
    split at form
    · cases form
    next hone =>
    split at form
    · cases form
    next htypes =>
    rw [ValidWith]
    refine ⟨?_, ?_, ?_, ?_, ?_, ?_, .inl (by simpa using hany), .inl (by simpa using hone)⟩
    · intro types h
      rw [htypes] at h
      cases h
    · intro _ _ _ h
      cases h
    all_goals intros; contradiction

end Schema

/-! ### The references of a converter -/

/-- The value is in the set of the entity, or is what the definition allows. -/
def Target.Allows (sets : String → Json → Prop) (definition : Schema → Json → Prop)
    (value : Json) : Target → Prop
  | .entity name => sets name value
  | .definition schema => definition schema value

namespace Converter

variable {c : Converter} {sets : String → Json → Prop}

/-- What a reference allows, where definitions are read to a depth. -/
def allowsAt (c : Converter) (sets : String → Json → Prop) : (depth : Nat) → String → Json → Prop
  | 0, path, value => ∃ target, c.target? path = some target ∧
    target.Allows sets (fun _ _ => False) value
  | depth + 1, path, value => ∃ target, c.target? path = some target ∧
    target.Allows sets (Schema.ValidWith (c.allowsAt sets depth)) value

/-- The value is valid for the schema, where entities are read as `sets` and definitions as deep as
it takes. -/
def Valid (c : Converter) (sets : String → Json → Prop) (schema : Schema) (value : Json) : Prop :=
  ∃ depth, ∀ deeper, depth ≤ deeper → schema.ValidWith (c.allowsAt sets deeper) value

theorem allowsAt_entity {depth : Nat} {path name : String} {value : Json}
    (target : c.target? path = some (.entity name)) (h : c.allowsAt sets depth path value) :
    sets name value := by
  cases depth with
  | zero =>
    obtain ⟨_, htarget, h⟩ := h
    obtain rfl := Option.some.inj (htarget.symm.trans target)
    exact h
  | succ depth =>
    obtain ⟨_, htarget, h⟩ := h
    obtain rfl := Option.some.inj (htarget.symm.trans target)
    exact h

theorem allowsAt_definition {depth : Nat} {path : String} {schema : Schema} {value : Json}
    (target : c.target? path = some (.definition schema)) (h : c.allowsAt sets depth path value) :
    ∃ rest, depth = rest + 1 ∧ schema.ValidWith (c.allowsAt sets rest) value := by
  cases depth with
  | zero =>
    obtain ⟨_, htarget, h⟩ := h
    obtain rfl := Option.some.inj (htarget.symm.trans target)
    exact h.elim
  | succ depth =>
    obtain ⟨_, htarget, h⟩ := h
    obtain rfl := Option.some.inj (htarget.symm.trans target)
    exact ⟨depth, rfl, h⟩

/-- A value is valid for a reference if it is so for what the reference means. -/
theorem valid_ref_iff {path : String} {value : Json} :
    c.Valid sets (.ref path) value ↔
      ∃ target, c.target? path = some target ∧ target.Allows sets (c.Valid sets) value := by
  constructor
  · rintro ⟨depth, h⟩
    have hallows : ∀ deeper, depth ≤ deeper → c.allowsAt sets deeper path value :=
      fun deeper hdeeper => by simpa only [Schema.ValidWith] using h deeper hdeeper
    obtain ⟨target, htarget, hvalue⟩ := hallows (depth + 1) (by omega)
    refine ⟨target, htarget, ?_⟩
    cases target with
    | entity name => exact hvalue
    | definition schema =>
      refine ⟨depth, fun deeper hdeeper => ?_⟩
      obtain ⟨rest, hrest, hvalid⟩ := allowsAt_definition htarget (hallows (deeper + 1) (by omega))
      cases hrest
      exact hvalid
  · rintro ⟨target, htarget, h⟩
    cases target with
    | entity name =>
      refine ⟨0, fun deeper _ => ?_⟩
      rw [Schema.ValidWith]
      cases deeper with
      | zero => exact ⟨_, htarget, h⟩
      | succ deeper => exact ⟨_, htarget, h⟩
    | definition schema =>
      obtain ⟨depth, h⟩ := h
      refine ⟨depth + 1, fun deeper hdeeper => ?_⟩
      obtain ⟨deeper, rfl⟩ : ∃ rest, deeper = rest + 1 := ⟨deeper - 1, by omega⟩
      rw [Schema.ValidWith]
      exact ⟨_, htarget, h deeper (by omega)⟩

end Converter

end TypedClients
