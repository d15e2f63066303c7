import TypedClients.Proofs.Node.Parts
import TypedClients.Proofs.Node.Validator

/-!
# Canonical nodes

Nodes may differ in what their validators leave out: how a union of less than two members is given,
what is said of further keys of an object with properties, which keys are required that are no
properties. The canonical node of a node has none of this, and it can be read off from the
expression of the validator (`Validator.toNode_ofNode`). So nodes have the same expression exactly
if they have the same canonical node (`Node.ofNode_eq_iff`).

## How it is proved

`canonical` goes down the node, and `toNode` comes back from the expression. That the two agree with
the expression of a node is one induction over nodes; the cases are the ways in which an expression
forgets something. So that equal expressions mean equal canonical nodes is read off from one
equation, and the other direction as well, since the canonical node has the expression of the node
that it is made from.
-/

namespace TypedClients

namespace Node

/-- A union, or what stands for it if it has less than two members. -/
def alternatives : List Node → Node
  | [] => .prim .unknown
  | [single] => single
  | several => .union several

mutual

/-- The node without what its validator leaves out. A record says what its values are. The required
keys of an object are a set, here in the order of the properties. -/
def canonical : Node → Node
  | .ref name => .ref name
  | .object [] _ additional => .object [] [] (some (canonicalValue additional))
  | .object (property :: properties) required _ =>
    .object (canonicalProperties (property :: properties))
      ((Keyed.keys (property :: properties)).filter fun key => key ∈ required) none
  | .array items => .array items.canonical
  | .union members => alternatives (canonicalMembers members)
  | .prim kind => .prim kind

/-- The canonical node of a record's values. -/
def canonicalValue : Option Node → Node
  | none => .prim .unknown
  | some node => node.canonical

/-- The properties of an object with their canonical nodes. -/
def canonicalProperties : List (String × Node) → List (String × Node)
  | [] => []
  | (key, node) :: rest => (key, node.canonical) :: canonicalProperties rest

/-- The canonical nodes of a union's members. -/
def canonicalMembers : List Node → List Node
  | [] => []
  | node :: rest => node.canonical :: canonicalMembers rest

end

theorem canonicalProperties_eq_map (properties : List (String × Node)) :
    canonicalProperties properties = properties.map fun p => (p.1, p.2.canonical) := by
  induction properties with
  | nil => rw [canonicalProperties, List.map_nil]
  | cons property properties ih => rw [canonicalProperties, ih, List.map_cons]

theorem canonicalMembers_eq_map (members : List Node) :
    canonicalMembers members = members.map canonical := by
  induction members with
  | nil => rw [canonicalMembers, List.map_nil]
  | cons member members ih => rw [canonicalMembers, ih, List.map_cons]

end Node

namespace Validator

/-! ### The node of a validator -/

mutual

/-- The node that a validator is the expression of. -/
def toNode : Validator → Node
  | .entity name => .ref name
  | .prim kind => .prim kind
  | .record values => .object [] [] (some values.toNode)
  | .object fields => .object (toProperties fields)
      (Keyed.keys (fields.filter fun field => !field.2.1)) none
  | .array items => .array items.toNode
  | .union members => .union (toMembers members)

/-- The properties that fields are the expressions of. -/
def toProperties : List (String × Bool × Validator) → List (String × Node)
  | [] => []
  | (key, _, validator) :: rest => (key, validator.toNode) :: toProperties rest

/-- The nodes that the members of a union are the expressions of. -/
def toMembers : List Validator → List Node
  | [] => []
  | validator :: rest => validator.toNode :: toMembers rest

end

theorem toProperties_eq_map (fields : List (String × Bool × Validator)) :
    toProperties fields = fields.map fun field => (field.1, field.2.2.toNode) := by
  induction fields with
  | nil => rw [toProperties, List.map_nil]
  | cons field fields ih => rw [toProperties, ih, List.map_cons]

theorem toMembers_eq_map (members : List Validator) : toMembers members = members.map toNode := by
  induction members with
  | nil => rw [toMembers, List.map_nil]
  | cons member members ih => rw [toMembers, ih, List.map_cons]

theorem toNode_choice (members : List Validator) :
    (choice members).toNode = Node.alternatives (members.map toNode) := by
  match members with
  | [] => rw [choice, toNode, List.map_nil, Node.alternatives]
  | [single] => rw [choice, List.map_singleton, Node.alternatives]
  | first :: second :: rest =>
    show toNode (.union (first :: second :: rest)) = _
    rw [toNode, toMembers_eq_map]
    rfl

/-- The fields that are not optional are the required properties. -/
theorem keys_filter_ofProperties (required : List String) (properties : List (String × Node)) :
    Keyed.keys ((ofProperties required properties).filter fun field => !field.2.1)
      = (Keyed.keys properties).filter fun key => key ∈ required := by
  rw [ofProperties_eq_map, Keyed.keys, Keyed.keys, List.filter_map, List.filter_map, List.map_map]
  simp [Function.comp_def]

/-- The node of a node's validator is the canonical one. -/
theorem toNode_ofNode (node : Node) : (ofNode node).toNode = node.canonical := by
  induction node using Node.induction with
  | ref name => rw [ofNode, toNode, Node.canonical]
  | object properties required additional ihp ihv =>
    cases properties with
    | nil =>
      rw [ofNode, toNode, Node.canonical]
      cases additional with
      | none => rw [ofValue, toNode, Node.canonicalValue]
      | some values => rw [ofValue, Node.canonicalValue, ihv values rfl]
    | cons property properties =>
      rw [ofNode, toNode, Node.canonical, keys_filter_ofProperties, toProperties_eq_map,
        ofProperties_eq_map, List.map_map, Node.canonicalProperties_eq_map]
      congr 1
      exact List.map_congr_left fun p hp => by rw [Function.comp_apply, ihp p hp]
  | array items ih => rw [ofNode, toNode, Node.canonical, ih]
  | union members ih =>
    rw [ofNode, toNode_choice, Node.canonical, ofMembers_eq_map, List.map_map,
      Node.canonicalMembers_eq_map]
    congr 1
    exact List.map_congr_left ih
  | prim kind => rw [ofNode, toNode, Node.canonical]

theorem ofNode_alternatives (nodes : List Node) :
    ofNode (Node.alternatives nodes) = choice (nodes.map ofNode) := by
  match nodes with
  | [] => rw [Node.alternatives, ofNode, List.map_nil, choice]
  | [single] => rw [Node.alternatives, List.map_singleton, choice]
  | first :: second :: rest =>
    show ofNode (.union (first :: second :: rest)) = _
    rw [ofNode, ofMembers_eq_map]

end Validator

namespace Node

open Validator

/-- A canonical node has the validator of the node that it is made from. -/
theorem ofNode_canonical (node : Node) : ofNode node.canonical = ofNode node := by
  induction node using Node.induction with
  | ref name => rw [canonical]
  | object properties required additional ihp ihv =>
    cases properties with
    | nil =>
      rw [canonical, ofNode, ofNode, ofValue]
      cases additional with
      | none => rw [canonicalValue, ofNode, ofValue]
      | some values => rw [canonicalValue, ofValue, ihv values rfl]
    | cons property properties =>
      rw [canonical, canonicalProperties_eq_map, List.map_cons, ofNode, ofNode,
        ← List.map_cons (f := fun p : String × Node => (p.1, p.2.canonical)), ofProperties_eq_map,
        ofProperties_eq_map, List.map_map]
      congr 1
      refine List.map_congr_left fun p hp => ?_
      have hkey : p.1 ∈ Keyed.keys (property :: properties) := List.mem_map_of_mem hp
      simp [Function.comp_apply, ihp p hp, hkey]
  | array items ih => rw [canonical, ofNode, ofNode, ih]
  | union members ih =>
    rw [canonical, ofNode_alternatives, canonicalMembers_eq_map, List.map_map, ofNode,
      ofMembers_eq_map]
    congr 1
    exact List.map_congr_left ih
  | prim kind => rw [canonical]

/-- Nodes have the same expression exactly if they have the same canonical node. -/
theorem ofNode_eq_iff {node other : Node} :
    ofNode node = ofNode other ↔ node.canonical = other.canonical := by
  constructor
  · intro h
    rw [← toNode_ofNode, ← toNode_ofNode, h]
  · intro h
    rw [← ofNode_canonical, ← ofNode_canonical other, h]

theorem canonical_canonical (node : Node) : node.canonical.canonical = node.canonical :=
  ofNode_eq_iff.mp (ofNode_canonical node)

end Node

end TypedClients
