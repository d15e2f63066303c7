import TypedClients.Endpoint.Collection
import TypedClients.Proofs.Outcome

/-!
# The operations of a document

A document has an operation wherever a member of a path item is called like a method
(`OpenApi.Document.sites`). The operation there is a tree, which may be no operation, and its schemas
may not convert; then the document has no endpoints at all.

## What is proved

* `Endpoint.ofDocument_eq_ok_iff`: if the document has endpoints, there is one for each operation, in
  the order of the paths and of the members of each path item. Each is made from the operation and
  the parameters that its path shares. And if each operation has an endpoint, the document has them.

Which error is given for a document without endpoints is not said. In a path item all operations are
read before any of their schemas is converted, so it is not the first thing that is wrong.
-/

namespace TypedClients

namespace OpenApi

/-- The place of an operation: its path, the parameters that the path shares, its method, and the
tree of the operation. -/
structure Site where
  path : String
  shared : List ParameterItem
  method : Method
  tree : Json

/-- The places of a path item's operations. -/
def PathItem.sites (path : String) (item : PathItem) : List Site :=
  item.entries.filterMap fun (key, tree) =>
    (Method.ofWord? key).map fun method => ⟨path, item.parameters, method, tree⟩

/-- The places of a document's operations. -/
def Document.sites (document : Document) : List Site :=
  document.paths.flatMap fun (path, item) => item.sites path

theorem PathItem.sites_cons (path key : String) (shared : List ParameterItem) (tree : Json)
    (entries : List (String × Json)) :
    PathItem.sites path ⟨shared, (key, tree) :: entries⟩ =
      match Method.ofWord? key with
      | none => PathItem.sites path ⟨shared, entries⟩
      | some method => ⟨path, shared, method, tree⟩ :: PathItem.sites path ⟨shared, entries⟩ := by
  rw [PathItem.sites, List.filterMap_cons]
  dsimp only
  cases Method.ofWord? key <;> rfl

/-- The operations of a path item, member by member. -/
theorem PathItem.operations_cons (path key : String) (shared : List ParameterItem) (tree : Json)
    (entries : List (String × Json)) :
    PathItem.operations path ⟨shared, (key, tree) :: entries⟩ =
      match Method.ofWord? key with
      | none => PathItem.operations path ⟨shared, entries⟩
      | some method =>
        match Operation.ofJson? tree with
        | some operation =>
          (PathItem.operations path ⟨shared, entries⟩).map ((method, operation) :: ·)
        | none =>
          .error (.invalidPart ("#/paths/" ++ Json.escapeStep path ++ "/" ++ key) .mismatch) := by
  unfold PathItem.operations
  rw [List.mapM_cons]
  dsimp only
  generalize (List.mapM _ entries : Except ResolveError (List (Option (Method × Operation)))) = found
  cases Method.ofWord? key with
  | none => cases found <;> rfl
  | some method =>
    cases Operation.ofJson? tree with
    | none => rfl
    | some operation => cases found <;> rfl

/-- A path item's operations are those at its places, if all of these are operations. -/
theorem PathItem.operations_eq_ok_iff {path : String} {item : PathItem}
    {operations : List (Method × Operation)} : item.operations path = .ok operations ↔
      List.Forall₂ (fun site operation => site.method = operation.1 ∧
        Operation.ofJson? site.tree = some operation.2) (item.sites path) operations := by
  obtain ⟨shared, entries⟩ := item
  induction entries generalizing operations with
  | nil =>
    constructor
    · rintro ⟨⟩
      exact .nil
    · rintro ⟨⟩
      rfl
  | cons entry entries ih =>
    obtain ⟨key, tree⟩ := entry
    rw [PathItem.operations_cons, PathItem.sites_cons]
    cases Method.ofWord? key with
    | none => exact ih
    | some method =>
      dsimp only
      rw [List.forall₂_cons_left_iff]
      cases htree : Operation.ofJson? tree with
      | none => simp
      | some operation =>
        rw [map_eq_ok]
        constructor
        · rintro ⟨rest, hrest, rfl⟩
          exact ⟨_, rest, ⟨rfl, rfl⟩, ih.mp hrest, rfl⟩
        · rintro ⟨⟨_, _⟩, rest, ⟨rfl, hoperation⟩, hrest, rfl⟩
          cases hoperation
          exact ⟨rest, ih.mpr hrest, rfl⟩

end OpenApi

namespace Endpoint

/-- The endpoint is made from the operation at the place. -/
def MadeAt (entities : List String) (site : OpenApi.Site) (endpoint : Endpoint) : Prop :=
  ∃ operation, OpenApi.Operation.ofJson? site.tree = some operation ∧
    ofOperation entities site.path site.shared site.method operation = .ok endpoint

theorem ofPathItem_eq_ok_iff {entities : List String} {path : String} {item : OpenApi.PathItem}
    {endpoints : List Endpoint} : ofPathItem entities path item = .ok endpoints ↔
      List.Forall₂ (MadeAt entities) (item.sites path) endpoints := by
  have hsite : ∀ site ∈ item.sites path, site.path = path ∧ site.shared = item.parameters := by
    intro site hmem
    obtain ⟨⟨key, tree⟩, -, hsite⟩ := List.mem_filterMap.mp hmem
    obtain ⟨method, -, rfl⟩ := Option.map_eq_some_iff.mp hsite
    exact ⟨rfl, rfl⟩
  have hgiven : ∀ R : OpenApi.Site → Endpoint → Prop, List.Forall₂ R (item.sites path) endpoints ↔
      List.Forall₂ (fun site endpoint => (site.path = path ∧ site.shared = item.parameters) ∧
        R site endpoint) (item.sites path) endpoints := fun R => by
    rw [List.forall₂_and_left, and_iff_right hsite]
  have hmade : ∀ (site : OpenApi.Site) (endpoint : Endpoint),
      site.path = path ∧ site.shared = item.parameters →
        ((∃ operation : Method × OpenApi.Operation, (site.method = operation.1 ∧
            OpenApi.Operation.ofJson? site.tree = some operation.2) ∧
          ofOperation entities path item.parameters operation.1 operation.2 = .ok endpoint)
        ↔ MadeAt entities site endpoint) := by
    rintro ⟨_, _, method, tree⟩ endpoint ⟨rfl, rfl⟩
    constructor
    · rintro ⟨⟨_, operation⟩, ⟨rfl, hoperation⟩, hmade⟩
      exact ⟨operation, hoperation, hmade⟩
    · rintro ⟨operation, hoperation, hmade⟩
      exact ⟨(method, operation), ⟨rfl, hoperation⟩, hmade⟩
  rw [ofPathItem, bind_eq_ok]
  simp only [mapM_eq_ok_iff, OpenApi.PathItem.operations_eq_ok_iff, ← forall₂_exists_iff]
  rw [hgiven, hgiven (MadeAt entities)]
  exact ⟨fun h => h.imp fun site endpoint h => ⟨h.1, (hmade site endpoint h.1).mp h.2⟩,
    fun h => h.imp fun site endpoint h => ⟨h.1, (hmade site endpoint h.1).mpr h.2⟩⟩

/-- The endpoints of a document are those of its operations, in their order. -/
theorem ofDocument_eq_ok_iff {entities : List String} {document : OpenApi.Document}
    {endpoints : List Endpoint} : ofDocument entities document = .ok endpoints ↔
      List.Forall₂ (MadeAt entities) document.sites endpoints := by
  rw [OpenApi.Document.sites, forall₂_flatMap_iff, ofDocument, bind_eq_ok]
  simp only [mapM_eq_ok_iff, ofPathItem_eq_ok_iff, Except.ok.injEq]

end Endpoint

end TypedClients
