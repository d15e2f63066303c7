import TypedClients.Proofs.Conversion.Shape
import TypedClients.Proofs.Node.Parts

/-!
# The schemas inside a converted schema

Where a schema is converted, so are the schemas that stand in it in a place that its shape depends
on, and their nodes are parts of its node (`occurs_of_includes`). So each reference in it comes to
a node as well (`yields_of_refers`).

## How it is proved

The proof follows the way in which a schema includes another one, step by step; each step is a
visit, and the node of what is visited is a part of the node of what visits it. What stands in a
place that has no part in the shape, such as a definition that nobody refers to, is not visited.
Such a schema may be of a kind that has no node, and the conversion succeeds all the same.
-/

namespace TypedClients

open Conversion

section

variable {onRef : String → Conversion Node} {untyped : Primitive} {schema part : Schema}
  {node : Node}

theorem occurs_of_typeShape {rel : Schema → Node → Prop} {type : TypeName}
    (hshape : TypeShape rel schema type node) (visit : schema.VisitsAs part type) :
    ∃ m, rel part m ∧ ∀ inner : Node, inner.Occurs m → inner.Occurs node := by
  cases visit with
  | items items =>
    cases hshape with
    | anyItems none => cases none.symm.trans items
    | items found node_items =>
      obtain rfl := Option.some.inj (found.symm.trans items)
      exact ⟨_, node_items, fun _ => .items⟩
  | property mem =>
    cases hshape with
    | object declared others =>
      obtain ⟨⟨_, m⟩, hm, rfl, hrel⟩ := exists_right declared mem
      exact ⟨m, hrel, fun _ => .property hm⟩
  | value values =>
    cases hshape with
    | object declared others =>
      rw [values] at others
      obtain ⟨m, rfl, hrel⟩ := exists_some_right others
      exact ⟨m, hrel, fun _ => .value⟩

/-- The node of a visited schema is a part of the node. -/
theorem occurs_of_visits {rel : Schema → Node → Prop} {refers : String → Node → Prop}
    (hshape : Shape rel refers untyped schema node) (visit : schema.Visits part) :
    ∃ m, rel part m ∧ ∀ inner : Node, inner.Occurs m → inner.Occurs node := by
  cases visit with
  | member form mem =>
    obtain ⟨nodes, rfl, nodes_members⟩ := hshape.of_choice form
    obtain ⟨m, hm, hrel⟩ := exists_right nodes_members mem
    exact ⟨m, hrel, fun _ => .member hm⟩
  | typed form mem visit =>
    obtain ⟨typed, hshape, hnode⟩ := hshape.of_typed form mem
    obtain ⟨m, hm, hoccurs⟩ := occurs_of_typeShape hshape visit
    refine ⟨m, hm, fun inner h => ?_⟩
    rcases hnode with rfl | ⟨nodes, rfl, hmem⟩
    · exact hoccurs inner h
    · exact .member hmem (hoccurs inner h)

/-- A schema that is converted has its node in the node of every schema that includes it. -/
theorem occurs_of_includes (h : Converts onRef untyped schema node)
    (hpart : schema.Includes part) : ∃ m, Converts onRef untyped part m ∧ m.Occurs node := by
  induction hpart using Relation.ReflTransGen.head_induction_on generalizing node with
  | refl => exact ⟨node, h, .here⟩
  | head visit _ ih =>
    obtain ⟨m, hm, hoccurs⟩ := occurs_of_visits (shape_of_yields h) visit
    obtain ⟨inner, hinner, hm⟩ := ih hm
    exact ⟨inner, hinner, hoccurs inner hm⟩

theorem yields_of_refers {path : String} (h : Converts onRef untyped schema node)
    (hpath : schema.Refers path) : ∃ m, Yields (onRef path) m := by
  obtain ⟨part, hpart, hform⟩ := hpath
  obtain ⟨m, hm, -⟩ := occurs_of_includes h hpart
  exact ⟨m, (shape_of_yields hm).of_reference hform⟩

end

end TypedClients
