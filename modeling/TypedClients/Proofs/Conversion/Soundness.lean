import TypedClients.Proofs.Keyed
import TypedClients.Proofs.Node.Validator
import TypedClients.Proofs.Schema.Validity

/-!
# Validators accept what is valid

A converted node is looser than its schema: each keyword that is left out of the node only ever
ruled values out. One step of this is `covers_of_shape`, for a node made of nodes that accept what
is valid for the visited schemas. It needs of an untyped schema that its node is unknown, and so it
holds of whole schemas inside entity files (`entityNode_accepts`).

## What is proved

`entityNode_accepts` — for every entity file that can be converted, and for every schema in it: the
validator is the text of an expression, and a value that is valid for the schema is accepted by that
expression. It holds for every way to read the references to entities, as long as validity and
acceptance read them alike.

## What is not here

The other direction. A validator accepts more than is valid, since it knows nothing of bounds,
formats and the like, and it does not have to reject anything for this statement.
-/

namespace TypedClients

open Conversion

/-- The validator of the node accepts what is valid for the schema. -/
def Covers (allows sets : String → Json → Prop) (schema : Schema) (node : Node) : Prop :=
  ∀ value, schema.ValidWith allows value → (Validator.ofNode node).Accepts sets value

section

variable {allows sets : String → Json → Prop} {schema : Schema} {value : Json}

/-! ### One schema -/

theorem accepts_union {nodes : List Node} {node : Node} (mem : node ∈ nodes)
    (h : (Validator.ofNode node).Accepts sets value) :
    (Validator.ofNode (.union nodes)).Accepts sets value := by
  rw [Validator.ofNode, Validator.ofMembers_eq_map]
  exact Validator.accepts_choice (List.mem_map_of_mem mem) h

/-- The members of an object are accepted where those that are valid for the schemas of the
properties are, and those outside the properties if there are none. -/
theorem accepts_objectNode {properties : List (String × Node)} {additional : Option Node}
    {members : List (String × Json)}
    (declared : List.Forall₂ (fun p q => p.1 = q.1 ∧ Covers allows sets p.2 q.2)
      schema.properties properties)
    (others : Option.Rel (Covers allows sets) schema.values? additional)
    (hvalid : schema.ValidWith allows (.object members)) :
    (Validator.ofNode (objectNode properties schema.required additional)).Accepts sets
      (.object members) := by
  unfold objectNode
  cases hproperties : properties with
  | nil =>
    rw [hproperties] at declared
    have hnone : schema.properties = [] := List.forall₂_nil_right_iff.mp declared
    rw [Validator.ofNode, Validator.Accepts]
    refine ⟨members, rfl, fun entry hentry => ?_⟩
    cases additional with
    | none => trivial
    | some node =>
      obtain ⟨values, hvalues, hcovers⟩ := exists_some_left others
      refine hcovers _ (hvalid.others hvalues hentry ?_)
      rw [hnone]
      exact List.not_mem_nil
  | cons first rest =>
    rw [Validator.ofNode, Validator.Accepts, ← hproperties, Validator.ofProperties_eq_map]
    refine ⟨members, rfl, Validator.fieldsAccept_of_forall ?_ ?_⟩
    · intro field hfield habsent
      obtain ⟨q, -, rfl⟩ := List.mem_map.mp hfield
      have hkey : q.1 ∉ schema.required := fun hmem =>
        Keyed.get?_eq_none_iff.mp habsent (hvalid.required hmem)
      simp only [decide_eq_true_eq, Keyed.mem_distinct, List.mem_filter, not_and]
      exact fun hmem => absurd hmem hkey
    · intro field hfield member hmember
      obtain ⟨q, hq, rfl⟩ := List.mem_map.mp hfield
      obtain ⟨p, hp, hkey, hcovers⟩ := exists_left declared hq
      have hfound : (Json.object members).member? p.1 = some member := hkey ▸ hmember
      exact hcovers member (hvalid.property hp hfound)

theorem accepts_of_typeShape {type : TypeName} {node : Node}
    (hshape : TypeShape (Covers allows sets) schema type node)
    (hvalid : schema.ValidWith allows value) (htype : type.Allows value) :
    (Validator.ofNode node).Accepts sets value := by
  cases hshape with
  | string => exact htype
  | number => exact htype
  | integer =>
    obtain ⟨text, literal, hvalue, -⟩ := htype
    exact ⟨text, hvalue⟩
  | boolean => exact htype
  | null => exact htype
  | anyItems =>
    obtain ⟨elements, rfl⟩ := htype
    exact ⟨elements, rfl, fun _ _ => trivial⟩
  | items found node_items =>
    obtain ⟨elements, rfl⟩ := htype
    exact ⟨elements, rfl, fun element mem => node_items element (hvalid.item found mem)⟩
  | object declared others =>
    obtain ⟨members, rfl⟩ := htype
    exact accepts_objectNode declared others hvalid

/-- A node that is made of covering nodes covers its schema, unless that is untyped and stands for
less than any value. -/
theorem covers_of_shape {untyped : Primitive} {node : Node}
    (hshape : Shape (Covers allows sets)
      (fun path node => ∀ value, allows path value → (Validator.ofNode node).Accepts sets value)
      untyped schema node)
    (huntyped : schema.form = .untyped → untyped = .unknown) : Covers allows sets schema node := by
  intro value hvalid
  cases hshape with
  | reference form node_path => exact node_path value (hvalid.reference form)
  | choice form nodes_members =>
    obtain ⟨part, hpart, hvalid⟩ := hvalid.choice form
    obtain ⟨node, hnode, hcovers⟩ := exists_right nodes_members hpart
    exact accepts_union hnode (hcovers value hvalid)
  | one form node_type =>
    obtain ⟨type, hmem, htype⟩ := hvalid.type form
    obtain rfl := List.mem_singleton.mp hmem
    exact accepts_of_typeShape node_type hvalid htype
  | several form nodes_types =>
    obtain ⟨type, hmem, htype⟩ := hvalid.type form
    obtain ⟨node, hnode, hshape⟩ := exists_right nodes_types hmem
    exact accepts_union hnode (accepts_of_typeShape hshape hvalid htype)
  | untyped form =>
    rw [huntyped form]
    trivial

/-! ### Whole schemas -/

/-- A converted node covers its schema if the nodes of references accept what these allow, unless
an untyped schema in it stands for less than any value. -/
theorem covers_of_converts {onRef : String → Conversion Node} {untyped : Primitive} {node : Node}
    (hrefs : ∀ path node, Yields (onRef path) node →
      ∀ value, allows path value → (Validator.ofNode node).Accepts sets value)
    (huntyped : ∀ part, schema.Includes part → part.form = .untyped → untyped = .unknown)
    (h : Converts onRef untyped schema node) : Covers allows sets schema node := by
  refine converts_induction (P := fun schema node =>
    (∀ part, schema.Includes part → part.form = .untyped → untyped = .unknown) →
      Covers allows sets schema node) ?_ h huntyped
  intro schema node hshape huntyped
  refine covers_of_shape (hshape.imp ?_ hrefs) (huntyped schema .refl)
  rintro part m - ⟨visit, -, ih⟩
  exact ih fun inner hinner => huntyped inner (.head visit hinner)

section

variable {c : Converter}

/-- Inside an entity file the untyped schemas are unknown, and what is expanded covers what it is
expanded from. -/
theorem accepts_of_yields_expand (huntyped : c.context.untyped = .unknown) {budget : Nat}
    {path : String} {node : Node} (h : Yields (c.expand budget path) node) {depth : Nat}
    (hvalue : c.allowsAt sets depth path value) : (Validator.ofNode node).Accepts sets value := by
  induction budget generalizing path node depth value with
  | zero => exact absurd h not_yields_throw
  | succ budget ih =>
    rcases Converter.expands_of_yields h with
      ⟨name, -, htarget, rfl⟩ | ⟨part, rest, htarget, hbudget, hpart⟩
    · exact Converter.allowsAt_entity htarget hvalue
    · cases hbudget
      obtain ⟨depth, -, hvalid⟩ := Converter.allowsAt_definition htarget hvalue
      exact covers_of_converts (fun _ _ h _ => ih h) (fun _ _ _ => huntyped) hpart value hvalid

end

/-- The validator of a schema in an entity file is printed from an expression that accepts every
value that is valid for the schema, whatever sets of values the entities stand for. -/
theorem entityNode_accepts {entities : List String} {root schema : Schema} {node : Node}
    (h : (Converter.mk entities (.entity root)).node schema = .ok node) :
    (∀ style, (Validator.ofNode node).text style = node.validator style) ∧
      ∀ sets value, (Converter.mk entities (.entity root)).Valid sets schema value →
        (Validator.ofNode node).Accepts sets value := by
  refine ⟨fun style => Validator.text_ofNode style node, fun sets value ⟨depth, hvalid⟩ => ?_⟩
  have huntyped : (Converter.mk entities (.entity root)).context.untyped = .unknown := rfl
  exact covers_of_converts (fun _ _ h _ => accepts_of_yields_expand huntyped h)
    (fun _ _ _ => huntyped) (Converter.converts_of_node h) value (hvalid depth (Nat.le_refl depth))

/-- A file that defines what a label is. -/
def labelFile : Schema :=
  .inline none none [] [] none none [] [] []
    [("label", .inline (some (.one .string)) none [] [] none none [] [] [] [] [])] []

/-- A schema of values with a label. -/
def labelled : Schema :=
  .inline (some (.one .object)) none [("label", .ref "#/$defs/label")] ["label"] none none [] [] []
    [] []

theorem entityNode_accepts_labelled :
    (Validator.ofNode (.object [("label", .prim .string)] ["label"] none)).Accepts
      (fun _ _ => False) (.object [("label", .string "new")]) := by
  have hnode : (Converter.mk [] (.entity labelFile)).node labelled
      = .ok (.object [("label", .prim .string)] ["label"] none) := rfl
  refine (entityNode_accepts hnode).2 _ _ ⟨1, fun deeper hdeeper => ?_⟩
  obtain ⟨deeper, rfl⟩ : ∃ rest, deeper = rest + 1 := ⟨deeper - 1, by omega⟩
  have htarget : (Converter.mk [] (.entity labelFile)).target? "#/$defs/label"
      = some (.definition (.inline (some (.one .string)) none [] [] none none [] [] [] [] [])) := rfl
  have hlabel : (Converter.mk [] (.entity labelFile)).allowsAt (fun _ _ => False) (deeper + 1)
      "#/$defs/label" (.string "new") :=
    ⟨_, htarget, by simp [Target.Allows, Schema.ValidWith, Schema.typesOf?, TypeSet.names,
      TypeName.Allows]⟩
  simpa [labelled, Schema.ValidWith, Schema.typesOf?, TypeSet.names, TypeName.Allows,
    Json.member?, Keyed.get?, Keyed.keys] using hlabel

end

end TypedClients
