import TypedClients.Node.Basic

/-!
# Reference cycles

An entity that can reach itself through references needs its type spelled out. The search for it
keeps the names that are still to be visited and those that have been; a name is visited once, so
the search ends.

## The search

`reaches` goes depth first: it takes the first pending name, is done if that is the name it looks
for, and otherwise puts the references of that name in front of the others. Two entities of one name
do not come into a module that is generated; here the last of them counts.

The bound counts the references from the start and those of all entities, as each of these is put
among the pending names at most once. That it is enough, and that the answer does not depend on the
order in which names are taken, is proved of the search and not built into it.
-/

namespace TypedClients.Entity

/-- The references of the entity called `name`; of two with that name, the last one's. -/
def edges (entities : List Entity) (name : String) : List String :=
  match entities.reverse.find? fun e => e.name == name with
  | some entity => entity.shape.references
  | none => []

/-- Whether `start` is reached from the names in `pending`. The bound is one for each name that
can still be put there. -/
def reaches (entities : List Entity) (start : String) :
    (bound : Nat) → (seen pending : List String) → Bool
  | 0, _, _ => false
  | _, _, [] => false
  | bound + 1, seen, name :: pending =>
    if name = start then true
    else if name ∈ seen then reaches entities start bound seen pending
    else reaches entities start bound (name :: seen) (edges entities name ++ pending)

/-- The number of references of all entities. -/
def edgeCount (entities : List Entity) : Nat :=
  (entities.flatMap fun e => e.shape.references).length

/-- Whether an entity lies on a cycle of references. -/
def isRecursive (entities : List Entity) (name : String) : Bool :=
  let first := edges entities name
  reaches entities name (first.length + edgeCount entities + 1) [] first

end TypedClients.Entity
