import Mathlib.Data.List.Forall2
import TypedClients.Proofs.Keyed
import TypedClients.Proofs.Schema.Form

/-!
# Places in a schema

A place is a list of steps from a schema to one inside it. What stands there can be looked up (`at?`)
and replaced (`putAt`).

A replacement changes one part of each schema on the way and keeps the others. `Parallel` says of two
schemas that they are the same apart from their parts, which are related to each other; local
definitions are no parts. Such schemas have the same form (`Parallel.form`). Members outside the
properties are a special case, as they may only be looked at where they are constrained.

## What is not here

A place cannot lead through a reference: what stands there would belong to another part of the
document. Nor does it lead to keywords that hold no schema.
-/

namespace TypedClients

/-- The schema of the members outside the properties, if it is one. -/
def Additional.schema? : Additional → Option Schema
  | .flag _ => none
  | .schema values => some values

namespace Schema

/-- A step from a schema to one inside it. -/
inductive Step where
  | property (position : Nat)
  | items
  | values
  | oneOf (position : Nat)
  | anyOf (position : Nat)
  | defs (key : String)
  | definitions (key : String)
  deriving DecidableEq, Repr

variable {schema part inner : Schema} {step : Step} {place rest : List Step} {path : String}

/-- The schema that the step leads to. -/
def inside? : Schema → Step → Option Schema
  | .ref _, _ => none
  | .inline _ _ properties _ additional items _ oneOf anyOf defs definitions, step =>
    match step with
    | .property i => (properties[i]?).map Prod.snd
    | .items => items
    | .values => additional.bind Additional.schema?
    | .oneOf i => oneOf[i]?
    | .anyOf i => anyOf[i]?
    | .defs key => Keyed.get? key defs
    | .definitions key => Keyed.get? key definitions

/-- The schema with another one where the step leads to. -/
def put : Schema → Step → Schema → Schema
  | .ref path, _, _ => .ref path
  | .inline type title properties required additional items allOf oneOf anyOf defs definitions,
    step, part =>
    match step with
    | .property i =>
      .inline type title (properties.modify i fun p => (p.1, part)) required additional items allOf
        oneOf anyOf defs definitions
    | .items =>
      .inline type title properties required additional (some part) allOf oneOf anyOf defs definitions
    | .values =>
      .inline type title properties required (some (.schema part)) items allOf oneOf anyOf defs
        definitions
    | .oneOf i =>
      .inline type title properties required additional items allOf (oneOf.set i part) anyOf defs
        definitions
    | .anyOf i =>
      .inline type title properties required additional items allOf oneOf (anyOf.set i part) defs
        definitions
    | .defs key =>
      .inline type title properties required additional items allOf oneOf anyOf
        (Keyed.insert key part defs) definitions
    | .definitions key =>
      .inline type title properties required additional items allOf oneOf anyOf defs
        (Keyed.insert key part definitions)

/-- What stands at the place. -/
def at? (schema : Schema) (place : List Step) : Option Schema :=
  place.foldlM inside? schema

/-- The schema with `part` in the place of what stands there. -/
def putAt : Schema → List Step → Schema → Schema
  | _, [], part => part
  | schema, step :: rest, part =>
    match schema.inside? step with
    | some inner => schema.put step (inner.putAt rest part)
    | none => schema

theorem inside?_values_eq_some_iff :
    schema.inside? .values = some part ↔ schema.additionalProperties? = some (.schema part) := by
  cases schema with
  | ref path => exact iff_of_false (by simp [inside?]) (by simp [additionalProperties?])
  | inline type title properties required additional items allOf oneOf anyOf defs definitions =>
    rcases additional with _ | ⟨flag | values⟩ <;>
      simp [inside?, additionalProperties?, Additional.schema?]

theorem inside?_defs (key : String) : schema.inside? (.defs key) = Keyed.get? key schema.defs := by
  cases schema <;> rfl

theorem inside?_definitions (key : String) :
    schema.inside? (.definitions key) = Keyed.get? key schema.definitions := by
  cases schema <;> rfl

theorem at?_cons : schema.at? (step :: rest) = (schema.inside? step).bind fun inner => inner.at? rest :=
  rfl

theorem at?_cons_eq_some_iff : schema.at? (step :: rest) = some part ↔
    ∃ inner, schema.inside? step = some inner ∧ inner.at? rest = some part := by
  rw [at?_cons, Option.bind_eq_some_iff]

theorem at?_singleton : schema.at? [step] = schema.inside? step := by
  rw [at?_cons]
  exact Option.bind_fun_some _

theorem at?_append (outer rest : List Step) :
    schema.at? (outer ++ rest) = (schema.at? outer).bind fun inner => inner.at? rest :=
  List.foldlM_append

theorem putAt_cons (h : schema.inside? step = some inner) :
    schema.putAt (step :: rest) part = schema.put step (inner.putAt rest part) := by
  rw [putAt, h]

/-! ### Schemas that are the same apart from their parts -/

/-- The forms are the same, with related members. -/
inductive Form.Parallel (rel : Schema → Schema → Prop) : Form → Form → Prop
  | refused : Form.Parallel rel .refused .refused
  | choice {members others : List Schema} (members_others : List.Forall₂ rel members others) :
    Form.Parallel rel (.choice members) (.choice others)
  | typed (types : TypeSet) : Form.Parallel rel (.typed types) (.typed types)
  | untyped : Form.Parallel rel .untyped .untyped

/-- Two values of `additionalProperties` are the same, with related schemas that both constrain the
members or both do not; or only the second one does, in a way that is allowed to it. -/
inductive Additional.Parallel (rel : Schema → Schema → Prop) (allowed : Schema → Prop) :
    Option Additional → Option Additional → Prop
  | absent : Additional.Parallel rel allowed none none
  | flag (flag : Bool) : Additional.Parallel rel allowed (some (.flag flag)) (some (.flag flag))
  | schema {values others : Schema} (isUntyped : values.isUntyped = others.isUntyped)
      (values_others : rel values others) :
    Additional.Parallel rel allowed (some (.schema values)) (some (.schema others))
  | loosened {values others : Schema} (untyped : values.isUntyped = true)
      (typed : others.isUntyped = false) (others_allowed : allowed others) :
    Additional.Parallel rel allowed (some (.schema values)) (some (.schema others))

/-- Two schemas are the same apart from their parts, which are related; but values that the first one
does not constrain may be constrained by the second one, in an allowed way. -/
structure Parallel (rel : Schema → Schema → Prop) (allowed : Schema → Prop)
    (schema other : Schema) : Prop where
  form : Form.Parallel rel schema.form other.form
  title : schema.title? = other.title?
  required : schema.required = other.required
  items : Option.Rel rel schema.items? other.items?
  properties : List.Forall₂ (fun p q => p.1 = q.1 ∧ rel p.2 q.2) schema.properties other.properties
  values : Option.Rel rel schema.values? other.values? ∨
    schema.values? = none ∧ ∃ values, other.values? = some values ∧ allowed values

theorem isEmpty_eq_of_forall₂ {α β : Type} {R : α → β → Prop} {as : List α} {bs : List β}
    (h : List.Forall₂ R as bs) : as.isEmpty = bs.isEmpty := by
  cases h <;> rfl

section Inline

variable {rel : Schema → Schema → Prop} {allowed : Schema → Prop} {type : Option TypeSet}
  {title : Option String} {properties properties' : List (String × Schema)} {required : List String}
  {additional additional' : Option Additional} {items items' : Option Schema}
  {allOf oneOf oneOf' anyOf anyOf' : List Schema}
  {defs defs' definitions definitions' : List (String × Schema)}

/-- The types are the same if those of the first schema do not depend on what only the second one
constrains. -/
theorem typesOf?_eq_of_parallel
    (hproperties : List.Forall₂ (fun p q => p.1 = q.1 ∧ rel p.2 q.2) properties properties')
    (hadditional : Additional.Parallel rel allowed additional additional')
    (hshape : ∀ values, allowed values → typesOf? type properties additional ≠ none) :
    typesOf? type properties additional = typesOf? type properties' additional' := by
  cases type with
  | some types => rfl
  | none =>
    simp only [typesOf?, isEmpty_eq_of_forall₂ hproperties] at hshape ⊢
    cases hadditional with
    | absent | flag => rfl
    | schema isUntyped =>
      simp only [Option.any_some, Additional.isTyped, isUntyped]
      rfl
    | loosened untyped typed others_allowed =>
      have hempty : properties'.isEmpty = false := by
        have hsome := hshape _ others_allowed
        simpa [Additional.isTyped, untyped] using hsome
      simp [hempty]

theorem form_parallel
    (hproperties : List.Forall₂ (fun p q => p.1 = q.1 ∧ rel p.2 q.2) properties properties')
    (hadditional : Additional.Parallel rel allowed additional additional')
    (hshape : ∀ values, allowed values → (inline type title properties required additional items
      allOf oneOf anyOf defs definitions).form ≠ .untyped)
    (honeOf : List.Forall₂ rel oneOf oneOf') (hanyOf : List.Forall₂ rel anyOf anyOf') :
    Form.Parallel rel
      (inline type title properties required additional items allOf oneOf anyOf defs
        definitions).form
      (inline type title properties' required additional' items' allOf oneOf' anyOf' defs'
        definitions').form := by
  simp only [form, ← isEmpty_eq_of_forall₂ honeOf, ← isEmpty_eq_of_forall₂ hanyOf] at hshape ⊢
  cases hall : allOf.isEmpty with
  | false => exact .refused
  | true =>
    cases hany : anyOf.isEmpty with
    | false => exact .choice hanyOf
    | true =>
      cases hone : oneOf.isEmpty with
      | false => exact .choice honeOf
      | true =>
        simp only [hall, hany, hone, Bool.not_true, Bool.false_eq_true, if_false] at hshape ⊢
        have hsome : ∀ values, allowed values → typesOf? type properties additional ≠ none := by
          intro values hvalues hnone
          have hform := hshape values hvalues
          rw [hnone] at hform
          exact hform rfl
        rw [← typesOf?_eq_of_parallel hproperties hadditional hsome]
        cases typesOf? type properties additional with
        | none => exact .untyped
        | some types => exact .typed types

theorem parallel_inline
    (hproperties : List.Forall₂ (fun p q => p.1 = q.1 ∧ rel p.2 q.2) properties properties')
    (hadditional : Additional.Parallel rel (fun values => allowed values ∧ (inline type title
        properties required additional items allOf oneOf anyOf defs definitions).form ≠ .untyped)
      additional additional')
    (hitems : Option.Rel rel items items') (honeOf : List.Forall₂ rel oneOf oneOf')
    (hanyOf : List.Forall₂ rel anyOf anyOf') :
    Parallel rel allowed
      (inline type title properties required additional items allOf oneOf anyOf defs definitions)
      (inline type title properties' required additional' items' allOf oneOf' anyOf' defs'
        definitions') where
  form := form_parallel hproperties hadditional (fun _ hvalues => hvalues.2) honeOf hanyOf
  title := rfl
  required := rfl
  items := hitems
  properties := hproperties
  values := by
    simp only [values?, additionalProperties?]
    cases hadditional with
    | absent | flag => exact .inl .none
    | @schema values others isUntyped values_others =>
      simp only [isUntyped]
      cases others.isUntyped with
      | true => exact .inl .none
      | false => exact .inl (.some values_others)
    | loosened untyped typed others_allowed =>
      exact .inr ⟨by simp only [untyped, if_true], _, by simp [typed], others_allowed.1⟩

/-- The parts of a schema are related to themselves if everything inside it is. -/
theorem parts_of_inside
    (hself : ∀ step part, (inline type title properties required additional items allOf oneOf anyOf
      defs definitions).inside? step = some part → rel part part) :
    List.Forall₂ (fun p q => p.1 = q.1 ∧ rel p.2 q.2) properties properties ∧
      Additional.Parallel rel allowed additional additional ∧ Option.Rel rel items items ∧
      List.Forall₂ rel oneOf oneOf ∧ List.Forall₂ rel anyOf anyOf := by
  refine ⟨List.forall₂_same.mpr fun p hp => ⟨rfl, ?_⟩, ?_, ?_, List.forall₂_same.mpr fun p hp => ?_,
    List.forall₂_same.mpr fun p hp => ?_⟩
  · obtain ⟨i, hi⟩ := List.mem_iff_getElem?.mp hp
    exact hself (.property i) p.2 (Option.map_eq_some_iff.mpr ⟨p, hi, rfl⟩)
  · rcases additional with _ | ⟨flag | values⟩
    · exact .absent
    · exact .flag flag
    · exact .schema rfl (hself .values values rfl)
  · cases items with
    | none => exact .none
    | some items => exact .some (hself .items items rfl)
  · obtain ⟨i, hi⟩ := List.mem_iff_getElem?.mp hp
    exact hself (.oneOf i) p hi
  · obtain ⟨i, hi⟩ := List.mem_iff_getElem?.mp hp
    exact hself (.anyOf i) p hi

end Inline

section

variable {rel : Schema → Schema → Prop} {allowed : Schema → Prop} {other : Schema}

theorem parallel_self (hinline : ∀ path, schema ≠ .ref path)
    (hself : ∀ step part, schema.inside? step = some part → rel part part) :
    Parallel rel allowed schema schema := by
  cases schema with
  | ref path => exact absurd rfl (hinline path)
  | inline type title properties required additional items allOf oneOf anyOf defs definitions =>
    obtain ⟨hproperties, hadditional, hitems, honeOf, hanyOf⟩ := parts_of_inside hself
    exact parallel_inline hproperties hadditional hitems honeOf hanyOf

theorem forall₂_modify {α : Type} {R : α → α → Prop} {as : List α} {i : Nat} {a : α} {f : α → α}
    (hself : List.Forall₂ R as as) (hi : as[i]? = some a) (h : R a (f a)) :
    List.Forall₂ R as (as.modify i f) := by
  induction as generalizing i with
  | nil => cases hi
  | cons b as ih =>
    obtain ⟨hb, has⟩ := List.forall₂_cons.mp hself
    cases i with
    | zero =>
      cases hi
      exact .cons h has
    | succ i => exact .cons hb (ih has hi)

/-- Putting another schema in the place of a part leaves the other parts. -/
theorem parallel_put (h : schema.inside? step = some inner) (hrel : rel inner other)
    (hself : ∀ step part, schema.inside? step = some part → rel part part)
    (hvalues : step = .values → inner.isUntyped = other.isUntyped ∨ inner.isUntyped = true ∧
      other.isUntyped = false ∧ allowed other ∧ schema.form ≠ .untyped) :
    Parallel rel allowed schema (schema.put step other) := by
  cases schema with
  | ref path => cases h
  | inline type title properties required additional items allOf oneOf anyOf defs definitions =>
    obtain ⟨hproperties, hadditional, hitems, honeOf, hanyOf⟩ := parts_of_inside hself
    cases step with
    | property i =>
      obtain ⟨p, hp, rfl⟩ := Option.map_eq_some_iff.mp h
      exact parallel_inline (forall₂_modify hproperties hp ⟨rfl, hrel⟩) hadditional hitems honeOf
        hanyOf
    | items =>
      obtain rfl : items = some inner := h
      exact parallel_inline hproperties hadditional (.some hrel) honeOf hanyOf
    | values =>
      obtain rfl : additional = some (.schema inner) := inside?_values_eq_some_iff.mp h
      refine parallel_inline hproperties ?_ hitems honeOf hanyOf
      rcases hvalues rfl with hsame | ⟨huntyped, htyped, hallowed, hform⟩
      · exact .schema hsame hrel
      · exact .loosened huntyped htyped ⟨hallowed, hform⟩
    | oneOf i =>
      rw [put, List.set_eq_modify]
      exact parallel_inline hproperties hadditional hitems (forall₂_modify honeOf h hrel) hanyOf
    | anyOf i =>
      rw [put, List.set_eq_modify]
      exact parallel_inline hproperties hadditional hitems honeOf (forall₂_modify hanyOf h hrel)
    | defs key => exact parallel_inline hproperties hadditional hitems honeOf hanyOf
    | definitions key => exact parallel_inline hproperties hadditional hitems honeOf hanyOf

end

/-! ### What stands inside -/

theorem getElem?_modify_eq {α : Type} {as : List α} {i : Nat} {a : α} (h : as[i]? = some a)
    (f : α → α) (j : Nat) : (as.modify i f)[j]? = if j = i then some (f a) else as[j]? := by
  rw [List.getElem?_modify]
  by_cases hj : i = j
  · subst hj
    simp [h]
  · simp [hj, Ne.symm hj]

/-- What is put somewhere is found there, and everything else where it was. -/
theorem inside?_put (h : schema.inside? step = some inner) (part : Schema) (step' : Step) :
    (schema.put step part).inside? step' = if step' = step then some part else schema.inside? step' := by
  cases schema with
  | ref path => cases h
  | inline type title properties required additional items allOf oneOf anyOf defs definitions =>
    cases step with
    | property i =>
      obtain ⟨p, hp, rfl⟩ := Option.map_eq_some_iff.mp h
      cases step' with
      | property j =>
        simp only [put, inside?, getElem?_modify_eq hp, Step.property.injEq]
        split <;> rfl
      | _ => rfl
    | oneOf i =>
      cases step' with
      | oneOf j =>
        simp only [put, inside?, List.set_eq_modify, getElem?_modify_eq h, Step.oneOf.injEq]
      | _ => rfl
    | anyOf i =>
      cases step' with
      | anyOf j =>
        simp only [put, inside?, List.set_eq_modify, getElem?_modify_eq h, Step.anyOf.injEq]
      | _ => rfl
    | defs key =>
      cases step' with
      | defs key' => simp only [put, inside?, Keyed.get?_insert, Step.defs.injEq]
      | _ => rfl
    | definitions key =>
      cases step' with
      | definitions key' => simp only [put, inside?, Keyed.get?_insert, Step.definitions.injEq]
      | _ => rfl
    | items => cases step' <;> rfl
    | values => cases step' <;> rfl

theorem sizeOf_lt_of_inside? (h : schema.inside? step = some part) :
    sizeOf part < sizeOf schema := by
  cases schema with
  | ref path => cases h
  | inline type title properties required additional items allOf oneOf anyOf defs definitions =>
    have hmem : ∀ {key : String} {table : List (String × Schema)}, (key, part) ∈ table →
        sizeOf part < sizeOf table := by
      intro key table hmem
      have hlt := List.sizeOf_lt_of_mem hmem
      simp only [Prod.mk.sizeOf_spec] at hlt
      omega
    simp only [inline.sizeOf_spec]
    cases step with
    | property i =>
      obtain ⟨p, hp, rfl⟩ := Option.map_eq_some_iff.mp h
      have := hmem (List.mem_of_getElem? hp)
      omega
    | items =>
      obtain rfl : items = some part := h
      simp only [Option.some.sizeOf_spec]
      omega
    | values =>
      obtain rfl : additional = some (.schema part) := inside?_values_eq_some_iff.mp h
      simp only [Option.some.sizeOf_spec, Additional.schema.sizeOf_spec]
      omega
    | oneOf i =>
      have := List.sizeOf_lt_of_mem (List.mem_of_getElem? h)
      omega
    | anyOf i =>
      have := List.sizeOf_lt_of_mem (List.mem_of_getElem? h)
      omega
    | defs key =>
      have := hmem (Keyed.mem_of_get?_eq_some h)
      omega
    | definitions key =>
      have := hmem (Keyed.mem_of_get?_eq_some h)
      omega

/-- What holds of a schema whenever it holds of those inside it holds of every schema. -/
theorem inside_induction {P : Schema → Prop}
    (step : ∀ schema, (∀ step part, schema.inside? step = some part → P part) → P schema)
    (schema : Schema) : P schema :=
  step schema fun _ part h =>
    have : sizeOf part < sizeOf schema := sizeOf_lt_of_inside? h
    inside_induction step part
termination_by sizeOf schema

/-- Changing something inside a schema leaves it untyped or not. -/
theorem isUntyped_put (h : schema.inside? step = some inner) (part : Schema) :
    (schema.put step part).isUntyped = schema.isUntyped := by
  cases schema with
  | ref path => rfl
  | inline type title properties required additional items allOf oneOf anyOf defs definitions =>
    have hempty : ∀ {α : Type} (as bs : List α), as.length = bs.length → as.isEmpty = bs.isEmpty := by
      intro α as bs hlength
      rw [Bool.eq_iff_iff, List.isEmpty_iff_length_eq_zero, List.isEmpty_iff_length_eq_zero, hlength]
    cases step with
    | property i => rw [put, isUntyped, isUntyped, hempty _ properties (List.length_modify _ _ _)]
    | oneOf i => rw [put, isUntyped, isUntyped, hempty _ oneOf List.length_set]
    | anyOf i => rw [put, isUntyped, isUntyped, hempty _ anyOf List.length_set]
    | items =>
      obtain rfl : items = some inner := h
      rfl
    | values | defs key | definitions key => rfl

end Schema

end TypedClients
