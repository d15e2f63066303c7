import TypedClients.Proofs.Conversion.Cycles
import TypedClients.Proofs.Schema.Place

/-!
# Naming a part of a schema

A part of an entity file can be made a local definition, with a reference to it where it stood
(`Schema.naming`). What a reference means in a file is a step from its root (`target?_entity`). So in
the file with the part named, the new reference means the part (`target?_localPath`), and every
other one means what it meant, in which the part may have been replaced (`target?_naming`).

## What is assumed of the name

`Nameable` says that the part stands below the root, so that there is a root to hold the definition;
that the name is that of no entity, as a reference would then be one to the entity; and that no
reference in the file has it already, as that reference would change its meaning.

## What is not here

Whether the file is converted alike before and after. That depends on where the part stands, and is
the subject of the module about naming.
-/

namespace TypedClients

/-- The converter of the schemas in a file with the given root. -/
abbrev Converter.inFile (entities : List String) (root : Schema) : Converter :=
  ⟨entities, .entity root⟩

open Converter

/-! ### Steps to definitions -/

namespace Schema.Step

/-- The reference that means what the step leads to, in a file whose root the step begins at. -/
def path? : Step → Option String
  | .defs key => some ("#/$defs/" ++ key)
  | .definitions key => some ("#/definitions/" ++ key)
  | _ => none

/-- The name in a local reference, and the step to what it means. -/
def ofPath? (path : String) : Option (String × Step) :=
  match Text.after? "#/$defs/" path with
  | some name => some (name, .defs name)
  | none => (Text.after? "#/definitions/" path).map fun name => (name, .definitions name)

theorem path?_ofPath? {path name : String} {step : Step} (h : ofPath? path = some (name, step)) :
    step.path? = some path := by
  unfold ofPath? at h
  split at h
  · next hname =>
    cases h
    exact congrArg some (Text.after?_eq_some_iff.mp hname).symm
  · obtain ⟨name, hname, h⟩ := Option.map_eq_some_iff.mp h
    cases h
    exact congrArg some (Text.after?_eq_some_iff.mp hname).symm

theorem ofPath?_defs (key : String) : ofPath? ("#/$defs/" ++ key) = some (key, .defs key) := by
  rw [ofPath?, Text.after?_eq_some_iff.mpr rfl]

theorem ofPath?_definitions (key : String) :
    ofPath? ("#/definitions/" ++ key) = some (key, .definitions key) := by
  have hdefs : Text.after? "#/$defs/" ("#/definitions/" ++ key) = none := by
    rw [Option.eq_none_iff_forall_ne_some]
    intro name hname
    have hchars := congrArg String.toList (Text.after?_eq_some_iff.mp hname)
    simp [String.toList_append] at hchars
  rw [ofPath?, hdefs, Text.after?_eq_some_iff.mpr rfl]
  rfl

/-- Steps to different definitions have different references. -/
theorem path?_inj {first second : Step} {path : String} (hfirst : first.path? = some path)
    (hsecond : second.path? = some path) : first = second := by
  have hofPath : ∀ step : Step, step.path? = some path →
      ∃ name, ofPath? path = some (name, step) := by
    intro step hstep
    cases step with
    | defs key =>
      cases hstep
      exact ⟨key, ofPath?_defs key⟩
    | definitions key =>
      cases hstep
      exact ⟨key, ofPath?_definitions key⟩
    | _ => cases hstep
  obtain ⟨name, hname⟩ := hofPath first hfirst
  obtain ⟨name', hname'⟩ := hofPath second hsecond
  exact (Prod.mk.inj (Option.some.inj (hname.symm.trans hname'))).2

end Schema.Step

section

variable {entities : List String} {root : Schema} {path : String}

/-- In a file a reference means an entity, or what its step leads to. -/
theorem target?_entity : (inFile entities root).target? path =
    (Schema.Step.ofPath? path).bind fun (name, step) =>
      if Name.entity name ∈ entities then some (.entity (Name.entity name))
      else (root.inside? step).map .definition := by
  unfold target? Schema.Step.ofPath?
  simp only [localTarget?, localTables, List.findSome?_cons, List.findSome?_nil]
  cases Text.after? "#/$defs/" path with
  | some name => simp only [Option.map_some, Option.bind_some, Schema.inside?_defs]
  | none =>
    cases Text.after? "#/definitions/" path with
    | some name =>
      simp only [Option.map_none, Option.map_some, Option.bind_some, Schema.inside?_definitions]
    | none => rfl

theorem exists_inside?_of_target? {schema : Schema}
    (h : (inFile entities root).target? path = some (.definition schema)) :
    ∃ step : Schema.Step, step.path? = some path ∧ root.inside? step = some schema := by
  rw [target?_entity, Option.bind_eq_some_iff] at h
  obtain ⟨⟨name, step⟩, hstep, h⟩ := h
  dsimp only at h
  split at h
  · cases Option.some.inj h
  · obtain ⟨inner, hinner, h⟩ := Option.map_eq_some_iff.mp h
    cases h
    exact ⟨step, Schema.Step.path?_ofPath? hstep, hinner⟩

theorem fault_entity : (inFile entities root).fault path =
    match Schema.Step.ofPath? path with
    | none => .unsupportedRef path
    | some _ => .targetNotFound path := by
  unfold fault Schema.Step.ofPath?
  simp only [localTarget?, localTables, List.findSome?_cons, List.findSome?_nil]
  cases Text.after? "#/$defs/" path with
  | some name => rfl
  | none => cases Text.after? "#/definitions/" path <;> rfl

end

/-! ### Making a part a definition -/

namespace Schema

/-- The schema with a local definition under the key. -/
def define : Schema → String → Schema → Schema
  | .ref path, _, _ => .ref path
  | .inline type title properties required additional items allOf oneOf anyOf defs definitions, key,
    part =>
    .inline type title properties required additional items allOf oneOf anyOf
      (Keyed.insert key part defs) definitions

theorem inside?_define {schema inner : Schema} {step : Step} (h : schema.inside? step = some inner)
    (key : String) (part : Schema) (step' : Step) :
    (schema.define key part).inside? step'
      = if step' = .defs key then some part else schema.inside? step' := by
  cases schema with
  | ref path => cases h
  | inline =>
    cases step' with
    | defs key' => simp only [define, inside?, Keyed.get?_insert, Step.defs.injEq]
    | _ => rfl

end Schema

/-- The reference to the local definition under the key. -/
def localPath (key : String) : String :=
  "#/$defs/" ++ key

/-- The root of a file in which the part at the place is a definition of its own. -/
def Schema.naming (root : Schema) (place : List Schema.Step) (key : String) (part : Schema) : Schema :=
  (root.putAt place (.ref (localPath key))).define key part

/-- The part at the place can be given the name: it stands below the root, and the name is that of no
entity and in no reference. -/
structure Nameable (entities : List String) (root : Schema) (place : List Schema.Step) (key : String)
    (part : Schema) : Prop where
  below : place ≠ []
  found : root.at? place = some part
  unused : ∀ other, root.at? other ≠ some (.ref (localPath key))
  noEntity : Name.entity key ∉ entities

/-- What is left of the place in the definition that the reference means, if the place is in it. -/
def restIn (path : String) : List Schema.Step → Option (List Schema.Step)
  | [] => none
  | step :: rest => if step.path? = some path then some rest else none

/-- A definition in the file with the part named. -/
def edited (place : List Schema.Step) (key path : String) (schema : Schema) : Schema :=
  match restIn path place with
  | some rest => schema.putAt rest (.ref (localPath key))
  | none => schema

/-- What a reference means in the file with the part named. -/
def Target.edited (place : List Schema.Step) (key path : String) : Target → Target
  | .entity name => .entity name
  | .definition schema => .definition (TypedClients.edited place key path schema)

section

variable {entities : List String} {root part : Schema} {place : List Schema.Step} {key path : String}

theorem inside?_naming (h : Nameable entities root place key part) {step' : Schema.Step}
    (hstep : step'.path? = some path) (hpath : path ≠ localPath key) :
    (root.naming place key part).inside? step'
      = (root.inside? step').map (edited place key path) := by
  have hne : step' ≠ .defs key := by
    rintro rfl
    exact hpath (Option.some.inj hstep).symm
  cases place with
  | nil => exact absurd rfl h.below
  | cons step rest =>
    obtain ⟨inner, hinner, -⟩ := Schema.at?_cons_eq_some_iff.mp h.found
    have hput := Schema.inside?_put hinner (inner.putAt rest (.ref (localPath key)))
    have hthere := (hput step).trans (if_pos rfl)
    rw [Schema.naming, Schema.putAt_cons hinner, Schema.inside?_define hthere, if_neg hne, hput]
    split
    · next heq =>
      rw [heq, hinner, Option.map_some, edited, restIn, if_pos (heq ▸ hstep)]
    · next hother =>
      have hedited : edited (step :: rest) key path = id := by
        funext schema
        rw [edited, restIn, if_neg fun hpath => hother (Schema.Step.path?_inj hstep hpath)]
        rfl
      rw [hedited, Option.map_id, id]

theorem target?_naming (h : Nameable entities root place key part) (hpath : path ≠ localPath key) :
    (inFile entities (root.naming place key part)).target? path
      = ((inFile entities root).target? path).map (Target.edited place key path) := by
  rw [target?_entity, target?_entity]
  cases hstep : Schema.Step.ofPath? path with
  | none => rfl
  | some found =>
    obtain ⟨name, step⟩ := found
    rw [Option.bind_some, Option.bind_some]
    dsimp only
    split
    · rfl
    · rw [inside?_naming h (Schema.Step.path?_ofPath? hstep) hpath, Option.map_map, Option.map_map]
      rfl

theorem target?_localPath (h : Nameable entities root place key part) :
    (inFile entities (root.naming place key part)).target? (localPath key)
      = some (.definition part) := by
  cases place with
  | nil => exact absurd rfl h.below
  | cons step rest =>
    obtain ⟨inner, hinner, -⟩ := Schema.at?_cons_eq_some_iff.mp h.found
    have hput := Schema.inside?_put hinner (inner.putAt rest (.ref (localPath key)))
    have hthere := (hput step).trans (if_pos rfl)
    rw [target?_entity, localPath, Schema.Step.ofPath?_defs, Option.bind_some]
    dsimp only
    rw [if_neg h.noEntity, Schema.naming, Schema.putAt_cons hinner, Schema.inside?_define hthere,
      if_pos rfl, Option.map_some]

end

end TypedClients
