import TypedClients.Proofs.Node.Pieces
import TypedClients.Proofs.Node.TypeText
import TypedClients.Proofs.Outcome
import TypedClients.Schema.Conversion

/-!
# Nodes with the same texts

Two nodes are alike if their validators and their types are the same texts, however references are
spelled. The type of an array brackets items that are alternatives, so alike nodes are alternatives
together. Nodes that are made in one way of alike parts are alike.

Alike nodes need not be the same node: the values of a record may be anything if nothing is said of
them, and also if they are said to be unknown (`valuesAlike_none`).

## What is not here

Alike nodes need not have the same references, as what is not printed does not count. The relation
is about texts only: that values of the two are accepted alike follows, but is not what is proved
here.
-/

namespace TypedClients.Node

/-- The validators and the types of the nodes are the same. -/
structure Alike (node other : Node) : Prop where
  validator (style : RefStyle) : node.validator style = other.validator style
  typeText (style : RefStyle) : node.typeText style = other.typeText style
  isAlternative : node.isAlternative = other.isAlternative

/-- The values of records are checked by the same validator and have the same type. -/
structure ValuesAlike (values others : Option Node) : Prop where
  validator (style : RefStyle) :
    values.elim "z.unknown()" (validator style) = others.elim "z.unknown()" (Node.validator style)
  typeText (style : RefStyle) :
    values.elim Primitive.unknown.word (typeText style)
      = others.elim Primitive.unknown.word (Node.typeText style)

variable {node other : Node} {nodes others : List Node} {values values' : Option Node}
  {properties properties' : List (String × Node)}

@[refl] theorem Alike.refl (node : Node) : Alike node node :=
  ⟨fun _ => rfl, fun _ => rfl, rfl⟩

theorem valuesAlike_none_none : ValuesAlike none none :=
  ⟨fun _ => rfl, fun _ => rfl⟩

theorem Alike.some (h : Alike node other) : ValuesAlike (some node) (some other) :=
  ⟨h.validator, h.typeText⟩

/-- Values of which nothing is said are like values that are said to be unknown. -/
theorem valuesAlike_none (h : Alike (.prim .unknown) node) : ValuesAlike none (some node) where
  validator style := by
    rw [Option.elim_some, ← h.validator, validator.eq_def]
    rfl
  typeText style := by
    rw [Option.elim_some, ← h.typeText, typeText.eq_def]
    rfl

theorem Alike.array (h : Alike node other) : Alike (.array node) (.array other) where
  validator style := by
    rw [validator.eq_def, validator.eq_def]
    simp only [h.validator]
  typeText style := by
    rw [typeText.eq_def, typeText.eq_def]
    simp only [h.typeText, h.isAlternative]
  isAlternative := rfl

theorem alike_union (h : List.Forall₂ Alike nodes others) : Alike (.union nodes) (.union others) where
  validator style := by
    rw [validator_union, validator_union,
      map_eq_map_of_forall₂ (h.imp fun _ _ halike => halike.validator style)]
  typeText style := by
    rw [typeText_union, typeText_union,
      map_eq_map_of_forall₂ (h.imp fun _ _ halike => halike.typeText style)]
  isAlternative := by
    cases h with
    | nil => rfl
    | cons _ hrest => cases hrest <;> rfl

/-- The properties have the same keys, in order, and alike nodes. -/
def PropertiesAlike : List (String × Node) → List (String × Node) → Prop :=
  List.Forall₂ fun p q => p.1 = q.1 ∧ Alike p.2 q.2

theorem PropertiesAlike.propertyValidators (h : PropertiesAlike properties properties')
    (style : RefStyle) (required : List String) :
    propertyValidators style required properties
      = Node.propertyValidators style required properties' := by
  rw [propertyValidators_eq_map, propertyValidators_eq_map]
  refine map_eq_map_of_forall₂ (List.Forall₂.imp (fun p q hp => ?_) h)
  rw [hp.1, hp.2.validator]

theorem PropertiesAlike.propertyTypes (h : PropertiesAlike properties properties')
    (style : RefStyle) (required : List String) :
    propertyTypes style required properties = Node.propertyTypes style required properties' := by
  rw [propertyTypes_eq_map, propertyTypes_eq_map]
  refine map_eq_map_of_forall₂ (List.Forall₂.imp (fun p q hp => ?_) h)
  rw [hp.1, hp.2.typeText]

theorem PropertiesAlike.keys (h : PropertiesAlike properties properties') :
    Keyed.keys properties = Keyed.keys properties' :=
  map_eq_map_of_forall₂ (List.Forall₂.imp (fun _ _ hp => hp.1) h)

theorem alike_objectNode (required : List String) (hproperties : PropertiesAlike properties properties')
    (hvalues : ValuesAlike values values') :
    Alike (objectNode properties required values) (objectNode properties' required values') := by
  rw [objectNode, objectNode, hproperties.keys]
  refine ⟨fun style => ?_, fun style => ?_, rfl⟩
  · have hlines := hproperties.propertyValidators style
    cases hproperties with
    | nil => rw [validator_record, validator_record, hvalues.validator]
    | cons =>
      rw [validator.eq_def, validator.eq_def]
      simp only [hlines]
  · have hfields := hproperties.propertyTypes style
    cases hproperties with
    | nil => rw [typeText_record, typeText_record, hvalues.typeText]
    | cons =>
      rw [typeText.eq_def, typeText.eq_def]
      simp only [hfields]

end TypedClients.Node
