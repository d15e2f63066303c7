import TypedClients.Proofs.Conversion.Inside
import TypedClients.Proofs.Conversion.Memory
import TypedClients.Proofs.Conversion.Soundness

/-!
# Untyped schemas inside documents

In an OpenAPI document an untyped schema carries no value, which is meant for a whole body or
response; its node is void wherever it stands. So a validator that is made from schemas of such a
document accepts what is valid exactly as long as none of the schemas that it is made from is
untyped (`componentNode_accepts_iff`).

## What is proved

`componentNode_accepts_iff` — for a schema of a document that can be converted: its validator
accepts what is valid and no part of its node is void, exactly if no schema which it is made from is
untyped; and it is exactly then that the validators of all the schemas inside accept what is valid.
In the one direction the proof is that for entity files; the other one needs one value, `null`,
which is valid for an untyped schema and which a void validator does not accept.

`componentNode_rejects_freeName` is the case of a property of which nothing is said.
-/

namespace TypedClients

open Conversion

section

variable {onRef : String → Conversion Node} {untyped : Primitive} {schema part : Schema}
  {node : Node}

/-! ### Where a void part comes from -/

theorem untyped_of_occurs_typeShape {type : TypeName}
    (hshape : TypeShape (fun part m => schema.VisitsAs part type ∧
      ((Node.prim .void).Occurs m → ∃ inner, part.Includes inner ∧ inner.form = .untyped))
      schema type node)
    (hvoid : (Node.prim .void).Occurs node) :
    ∃ part inner, schema.VisitsAs part type ∧ part.Includes inner ∧ inner.form = .untyped := by
  cases hshape with
  | string | number | integer | boolean | null => cases hvoid
  | anyItems =>
    cases hvoid with
    | items inside => cases inside
  | items _ node_items =>
    cases hvoid with
    | items inside =>
      obtain ⟨inner, hinner⟩ := node_items.2 inside
      exact ⟨_, inner, node_items.1, hinner⟩
  | object declared others =>
    cases hvoid with
    | property mem inside =>
      obtain ⟨p, -, -, hvisit, hp⟩ := exists_left declared mem
      obtain ⟨inner, hinner⟩ := hp inside
      exact ⟨p.2, inner, hvisit, hinner⟩
    | value inside =>
      obtain ⟨part, -, hvisit, hpart⟩ := exists_some_left others
      obtain ⟨inner, hinner⟩ := hpart inside
      exact ⟨part, inner, hvisit, hinner⟩

/-- If the nodes of references have no void part, every void part is the node of an untyped
schema. -/
theorem untyped_of_occurs
    (hrefs : ∀ path m, Yields (onRef path) m → ¬ (Node.prim .void).Occurs m)
    (h : Converts onRef untyped schema node) (hvoid : (Node.prim .void).Occurs node) :
    ∃ part, schema.Includes part ∧ part.form = .untyped := by
  refine converts_induction (P := fun schema node => (Node.prim .void).Occurs node →
    ∃ part, schema.Includes part ∧ part.form = .untyped) ?_ h hvoid
  intro schema node hshape hvoid
  have hstep : ∀ {types : TypeSet} {type : TypeName} {m : Node},
      schema.form = .typed types → type ∈ types.names →
      TypeShape (fun part m => schema.Visits part ∧ Converts onRef untyped part m ∧
        ((Node.prim .void).Occurs m → ∃ inner, part.Includes inner ∧ inner.form = .untyped))
        schema type m → (Node.prim .void).Occurs m →
      ∃ part, schema.Includes part ∧ part.form = .untyped := by
    intro types type m hform htype hshape hvoid
    obtain ⟨part, inner, hvisit, hinner, huntyped⟩ :=
      untyped_of_occurs_typeShape (hshape.imp fun _ _ visit hm => ⟨visit, hm.2.2⟩) hvoid
    exact ⟨inner, .head (.typed hform htype hvisit) hinner, huntyped⟩
  cases hshape with
  | reference _ node_path => exact absurd hvoid (hrefs _ _ node_path)
  | choice form nodes_members =>
    cases hvoid with
    | member mem inside =>
      obtain ⟨part, -, hvisit, -, ih⟩ := exists_left nodes_members mem
      obtain ⟨inner, hinner, huntyped⟩ := ih inside
      exact ⟨inner, .head hvisit hinner, huntyped⟩
  | one form node_type => exact hstep form List.mem_cons_self node_type hvoid
  | several form nodes_types =>
    cases hvoid with
    | member mem inside =>
      obtain ⟨type, htype, hshape⟩ := exists_left nodes_types mem
      exact hstep form htype hshape inside
  | untyped form => exact ⟨schema, .refl, form⟩

end

/-! ### Schemas of documents -/

/-- The schema can be converted, to a node whose validator accepts every value that is valid for
it, whatever sets of values the entities stand for. -/
def Converter.Sound (c : Converter) (schema : Schema) : Prop :=
  ∃ node, c.node schema = .ok node ∧
    ∀ sets value, c.Valid sets schema value → (Validator.ofNode node).Accepts sets value

section

variable {entities : List String} {schema : Schema} {node : Node}

/-- In a document a reference is converted to that of an entity. -/
theorem ref_of_yields_expand {budget : Nat} {path : String}
    (h : Yields ((Converter.mk entities .components).expand budget path) node) :
    ∃ name, (Converter.mk entities .components).target? path = some (.entity name) ∧
      node = .ref name := by
  rcases Converter.expands_of_yields h with ⟨name, -, htarget, hnode⟩ | ⟨part, _, htarget, -, -⟩
  · exact ⟨name, htarget, hnode⟩
  · exact absurd htarget Converter.target?_ne_definition

theorem not_void_of_yields_expand {budget : Nat} {path : String}
    (h : Yields ((Converter.mk entities .components).expand budget path) node) :
    ¬ (Node.prim .void).Occurs node := by
  obtain ⟨name, -, rfl⟩ := ref_of_yields_expand h
  intro hvoid
  cases hvoid

theorem accepts_of_includes_no_untyped
    (h : Yields ((Converter.mk entities .components).convert schema) node)
    (typed : ∀ part, schema.Includes part → part.form ≠ .untyped)
    {sets : String → Json → Prop} {value : Json}
    (hvalid : (Converter.mk entities .components).Valid sets schema value) :
    (Validator.ofNode node).Accepts sets value := by
  obtain ⟨depth, hvalid⟩ := hvalid
  refine covers_of_converts ?_ (fun part hpart hform => absurd hform (typed part hpart)) h value
    (hvalid depth (Nat.le_refl depth))
  intro path node hpath value hvalue
  obtain ⟨name, htarget, rfl⟩ := ref_of_yields_expand hpath
  exact Converter.allowsAt_entity htarget hvalue

/-- An untyped schema leaves `null` to be valid, and its validator does not accept it. -/
theorem not_sound_of_untyped (hform : schema.form = .untyped) :
    ¬ (Converter.mk entities .components).Sound schema := by
  rintro ⟨node, hnode, haccepts⟩
  obtain rfl := (shape_of_yields (Converter.converts_of_node hnode)).of_untyped hform
  exact haccepts (fun _ _ => False) .null ⟨0, fun _ _ => Schema.validWith_null_of_untyped hform⟩

/-- In a document, a validator accepts every valid value and has no void part, and so do those of
the schemas inside, as long as none of these is untyped and no longer. -/
theorem componentNode_accepts_iff
    (h : (Converter.mk entities .components).node schema = .ok node) :
    (((∀ sets value, (Converter.mk entities .components).Valid sets schema value →
          (Validator.ofNode node).Accepts sets value) ∧ ¬ (Node.prim .void).Occurs node) ↔
        ∀ part, schema.Includes part → part.form ≠ .untyped) ∧
      ((∀ part, schema.Includes part → (Converter.mk entities .components).Sound part) ↔
        ∀ part, schema.Includes part → part.form ≠ .untyped) := by
  have hconverts := Converter.converts_of_node h
  constructor
  · constructor
    · rintro ⟨-, hvoid⟩ part hpart hform
      obtain ⟨m, hm, hoccurs⟩ := occurs_of_includes hconverts hpart
      obtain rfl := (shape_of_yields hm).of_untyped hform
      exact hvoid hoccurs
    · intro typed
      refine ⟨fun sets value => accepts_of_includes_no_untyped hconverts typed, fun hvoid => ?_⟩
      obtain ⟨part, hpart, hform⟩ := untyped_of_occurs (fun _ _ => not_void_of_yields_expand)
        hconverts hvoid
      exact typed part hpart hform
  · constructor
    · exact fun hsound part hpart hform => not_sound_of_untyped hform (hsound part hpart)
    · intro typed part hpart
      obtain ⟨m, hm, -⟩ := occurs_of_includes hconverts hpart
      exact ⟨m, node_of_yields hm, fun sets value => accepts_of_includes_no_untyped hm
        fun inner hinner => typed inner (hpart.trans hinner)⟩

/-- A schema of objects with a name, of which nothing else is said. -/
def freeName : Schema :=
  .inline (some (.one .object)) none [("name", .empty)] ["name"] none none [] [] [] [] []

theorem componentNode_rejects_freeName :
    (Converter.mk [] .components).node freeName
        = .ok (.object [("name", .prim .void)] ["name"] none) ∧
      freeName.form ≠ .untyped ∧
      ∃ value, (Converter.mk [] .components).Valid (fun _ _ => False) freeName value ∧
        ¬ (Validator.ofNode (.object [("name", .prim .void)] ["name"] none)).Accepts
          (fun _ _ => False) value := by
  refine ⟨rfl, Schema.Form.noConfusion, .object [("name", .null)], ⟨0, fun deeper _ => ?_⟩, ?_⟩
  · have hname : Schema.empty.ValidWith
        ((Converter.mk [] .components).allowsAt (fun _ _ => False) deeper) .null :=
      Schema.validWith_null_of_untyped rfl
    simpa [freeName, Schema.ValidWith, Schema.typesOf?, TypeSet.names, TypeName.Allows,
      Json.member?, Keyed.get?, Keyed.keys] using hname
  · simp [Validator.ofNode, Validator.ofProperties, Validator.Accepts, Validator.FieldsAccept,
      Keyed.get?, Primitive.Accepts]

/-- A schema of lists of names. -/
def nameList : Schema :=
  .inline (some (.one .array)) none [] [] none
    (some (.inline (some (.one .string)) none [] [] none none [] [] [] [] [])) [] [] [] [] []

theorem componentNode_accepts_nameList :
    (Validator.ofNode (.array (.prim .string))).Accepts (fun _ _ => False)
      (.array [.string "Ann"]) := by
  have hnode : (Converter.mk [] .components).node nameList = .ok (.array (.prim .string)) := rfl
  have hvalid : (Converter.mk [] .components).Valid (fun _ _ => False) nameList
      (.array [.string "Ann"]) :=
    ⟨0, fun _ _ => by simp [nameList, Schema.ValidWith, Schema.typesOf?, TypeSet.names,
      TypeName.Allows, Json.member?]⟩
  refine ((componentNode_accepts_iff hnode).1.mpr ?_).1 _ _ hvalid
  intro part hpart
  rcases Relation.ReflTransGen.cases_head hpart with rfl | ⟨item, visit, hpart⟩
  · exact Schema.Form.noConfusion
  · cases visit with
    | member form => cases form
    | typed form mem visit =>
      cases form
      obtain rfl := List.mem_singleton.mp mem
      cases visit with
      | items items =>
        cases items
        rcases Relation.ReflTransGen.cases_head hpart with rfl | ⟨inner, visit, -⟩
        · exact Schema.Form.noConfusion
        · cases visit with
          | member form => cases form
          | typed form mem visit =>
            cases form
            obtain rfl := List.mem_singleton.mp mem
            cases visit

end

end TypedClients
