import TypedClients.Node.Basic

/-!
# The parts of a node

A property of all nodes is proved from that of the nodes inside (`Node.induction`). A node mentions
what the nodes inside mention.

## What it is for

Nodes are nested inductively, through lists of properties and members and through an option for
values. `Node.induction` gives one case for each form of a node and hides the lists, as the
recursion of the definitions goes through them.
-/

namespace TypedClients.Node

/-- What holds of a node whenever it holds of the nodes inside holds of every node. -/
theorem induction {P : Node → Prop} (ref : ∀ name, P (.ref name))
    (object : ∀ properties required additional, (∀ p ∈ properties, P p.2) →
      (∀ values, additional = some values → P values) → P (.object properties required additional))
    (array : ∀ items, P items → P (.array items))
    (union : ∀ members, (∀ member ∈ members, P member) → P (.union members))
    (prim : ∀ kind, P (.prim kind)) : ∀ node, P node
  | .ref name => ref name
  | .object properties required additional =>
    object properties required additional
      (fun p _ => induction ref object array union prim p.2)
      (fun values _ => induction ref object array union prim values)
  | .array items => array items (induction ref object array union prim items)
  | .union members =>
    union members fun member _ => induction ref object array union prim member
  | .prim kind => prim kind
termination_by node => sizeOf node
decreasing_by
  · have hlt := List.sizeOf_lt_of_mem ‹p ∈ properties›
    obtain ⟨key, part⟩ := p
    simp only [Prod.mk.sizeOf_spec] at hlt
    simp only [Node.object.sizeOf_spec]
    omega
  · subst additional
    simp only [Node.object.sizeOf_spec, Option.some.sizeOf_spec]
    omega
  · simp only [Node.array.sizeOf_spec]
    omega
  · have hlt := List.sizeOf_lt_of_mem ‹member ∈ members›
    simp only [Node.union.sizeOf_spec]
    omega

/-- The node is `root` or a part of it, at any depth. -/
inductive Occurs (node : Node) : Node → Prop
  | here : Occurs node node
  | property {properties : List (String × Node)} {required : List String}
      {additional : Option Node} {key : String} {part : Node} (mem : (key, part) ∈ properties)
      (inside : Occurs node part) : Occurs node (.object properties required additional)
  | value {properties : List (String × Node)} {required : List String} {part : Node}
      (inside : Occurs node part) : Occurs node (.object properties required (some part))
  | items {part : Node} (inside : Occurs node part) : Occurs node (.array part)
  | member {members : List Node} {part : Node} (mem : part ∈ members)
      (inside : Occurs node part) : Occurs node (.union members)

theorem mem_mentionsOfList {name : String} {nodes : List Node} :
    name ∈ mentionsOfList nodes ↔ ∃ node ∈ nodes, name ∈ node.mentions := by
  induction nodes with
  | nil => simp [mentionsOfList]
  | cons node nodes ih => simp [mentionsOfList, ih]

theorem mem_mentionsOfProperties {name : String} {properties : List (String × Node)} :
    name ∈ mentionsOfProperties properties ↔ ∃ p ∈ properties, name ∈ p.2.mentions := by
  induction properties with
  | nil => simp [mentionsOfProperties]
  | cons property properties ih => simp [mentionsOfProperties, ih]

theorem mem_mentionsOfOption {name : String} {node : Option Node} :
    name ∈ mentionsOfOption node ↔ ∃ m, node = some m ∧ name ∈ m.mentions := by
  cases node <;> simp [mentionsOfOption]

variable {name : String} {properties : List (String × Node)} {required : List String}

theorem mem_mentions_property {additional : Option Node} {p : String × Node} (hp : p ∈ properties)
    (h : name ∈ p.2.mentions) : name ∈ (Node.object properties required additional).mentions :=
  List.mem_append_left _ (mem_mentionsOfProperties.mpr ⟨p, hp, h⟩)

theorem mem_mentions_value {values : Node} (h : name ∈ values.mentions) :
    name ∈ (Node.object properties required (some values)).mentions :=
  List.mem_append_right _ h

theorem mem_mentions_member {member : Node} {members : List Node} (hmember : member ∈ members)
    (h : name ∈ member.mentions) : name ∈ (Node.union members).mentions :=
  mem_mentionsOfList.mpr ⟨member, hmember, h⟩

end TypedClients.Node
