import TypedClients.Proofs.Conversion.Expansion
import TypedClients.Proofs.Node.Parts

/-!
# References of converted nodes

Every reference in a converted node, at any depth, names an entity of the converter: references
are made in one place only, where the name has been looked up, and all other nodes mention what
their parts mention. The definitions that are expanded on the way make no difference.

## How it is proved

By induction over the ways in which a converted node is made (`converts_induction`), where only
references are of interest: all other nodes pass on the references of their parts. The induction
over the budget is apart from it and is one step, as an expansion converts a definition with the
expansions of one budget less.

## What is not here

That an entity which a node names is declared. The names are those that the converter was given;
where the modules come from one source, these are the names of its entities.
-/

namespace TypedClients

open Conversion

/-- All references in the node are among the names. -/
def Node.RefersTo (names : List String) (node : Node) : Prop :=
  ∀ name ∈ node.mentions, name ∈ names

section

variable {names : List String}

theorem refersTo_of_mentions_eq_nil {node : Node} (h : node.mentions = []) :
    node.RefersTo names := by
  intro name hname
  rw [h] at hname
  cases hname

theorem refersTo_ref {name : String} (h : name ∈ names) : (Node.ref name).RefersTo names := by
  intro other hother
  obtain rfl := List.mem_singleton.mp hother
  exact h

theorem refersTo_union {nodes : List Node} (h : ∀ node ∈ nodes, node.RefersTo names) :
    (Node.union nodes).RefersTo names := by
  intro name hname
  obtain ⟨node, hnode, hname⟩ := Node.mem_mentionsOfList.mp (by simpa [Node.mentions] using hname)
  exact h node hnode name hname

theorem refersTo_object {properties : List (String × Node)} {required : List String}
    {additional : Option Node} (hproperties : ∀ p ∈ properties, p.2.RefersTo names)
    (hadditional : ∀ node, additional = some node → node.RefersTo names) :
    (Node.object properties required additional).RefersTo names := by
  intro name hname
  rw [Node.mentions, List.mem_append] at hname
  rcases hname with hname | hname
  · obtain ⟨p, hp, hname⟩ := Node.mem_mentionsOfProperties.mp hname
    exact hproperties p hp name hname
  · obtain ⟨node, hnode, hname⟩ := Node.mem_mentionsOfOption.mp hname
    exact hadditional node hnode name hname

theorem refersTo_of_typeShape {part : Schema → Node → Prop}
    (hpart : ∀ inner m, part inner m → m.RefersTo names) {schema : Schema} {type : TypeName}
    {node : Node} (h : TypeShape part schema type node) : node.RefersTo names := by
  cases h with
  | string | number | integer | boolean | null | anyItems => exact refersTo_of_mentions_eq_nil rfl
  | items _ node_items =>
    intro name hname
    exact hpart _ _ node_items name (by simpa [Node.mentions] using hname)
  | object declared others =>
    refine refersTo_object (fun p hp => ?_) ?_
    · obtain ⟨_, _, _, hp⟩ := exists_left declared hp
      exact hpart _ _ hp
    · rintro node rfl
      obtain ⟨_, _, h⟩ := exists_some_left others
      exact hpart _ _ h

/-- If references are converted to nodes that refer to the names, so are schemas. -/
theorem refersTo_of_converts {onRef : String → Conversion Node} {untyped : Primitive}
    (hrefs : ∀ path node, Yields (onRef path) node → node.RefersTo names) {schema : Schema}
    {node : Node} (h : Converts onRef untyped schema node) : node.RefersTo names := by
  refine converts_induction (P := fun _ node => node.RefersTo names) ?_ h
  intro schema node hshape
  cases hshape with
  | reference _ node_path => exact hrefs _ _ node_path
  | choice _ nodes_members =>
    refine refersTo_union fun node hnode => ?_
    obtain ⟨_, _, _, _, h⟩ := exists_left nodes_members hnode
    exact h
  | one _ node_type => exact refersTo_of_typeShape (fun _ _ h => h.2.2) node_type
  | several _ nodes_types =>
    refine refersTo_union fun node hnode => ?_
    obtain ⟨_, _, h⟩ := exists_left nodes_types hnode
    exact refersTo_of_typeShape (fun _ _ h => h.2.2) h
  | untyped => exact refersTo_of_mentions_eq_nil rfl

theorem refersTo_of_yields_expand {c : Converter} {budget : Nat} {path : String} {node : Node}
    (h : Yields (c.expand budget path) node) : node.RefersTo c.entities := by
  induction budget generalizing path node with
  | zero => exact absurd h not_yields_throw
  | succ budget ih =>
    rcases Converter.expands_of_yields h with ⟨name, hname, -, rfl⟩ | ⟨part, rest, -, hrest, h⟩
    · exact refersTo_ref hname
    · cases hrest
      exact refersTo_of_converts (fun _ _ => ih) h

/-- A converted node refers to entities only. -/
theorem refersTo_of_node {c : Converter} {schema : Schema} {node : Node}
    (h : c.node schema = .ok node) : node.RefersTo c.entities :=
  refersTo_of_converts (fun _ _ => refersTo_of_yields_expand) (Converter.converts_of_node h)

end

end TypedClients
