import TypedClients.Hook.Module
import TypedClients.Proofs.Endpoint.Grouping
import TypedClients.Proofs.Hook.Planning

/-!
# When there is a module of hooks

The endpoints are planned tag by tag and the plans are then put back into the order of the endpoints
(`byPosition_filterMap`). Which names can be claimed does not depend on the order, so there is a
module exactly if what the endpoints declare are new names that differ from each other
(`moduleFragments_eq_ok_iff`). Nothing else is refused, and only what is said about the buckets is
warned about.

## How it is proved

Planning needs the endpoints tag by tag and the object needs them in their own order. `discovered`
is the first order and a permutation of the second, and `byPosition_filterMap` undoes it for
whatever belongs to the endpoints. After that the order of planning is forgotten: the fragments are
those of `moduleOf`, which does not mention it, apart from the declarations, which stand in it.

## What is not here

What the text of the module says. The object and the declarations have modules of their own.
-/

namespace TypedClients.Hook

/-! ### Back to the order of the endpoints -/

variable {α : Type}

theorem zip_filterMap {β : Type} {f : α → Option β} {items : List α}
    (h : ∀ item ∈ items, (f item).isSome = true) :
    (items.zip (items.filterMap f)).map (fun pair => (pair.1, some pair.2))
      = items.map fun item => (item, f item) := by
  induction items with
  | nil => rfl
  | cons item items ih =>
    rw [List.forall_mem_cons] at h
    obtain ⟨value, hvalue⟩ := Option.isSome_iff_exists.mp h.1
    rw [List.filterMap_cons_some hvalue, List.zip_cons_cons, List.map_cons, List.map_cons, ih h.2,
      hvalue]

/-- Sorted, all the positions stand in ascending order. -/
theorem positions_mergeSort {pairs : List (Nat × α)} {n : Nat}
    (h : (pairs.map Prod.fst).Perm (List.range n)) :
    (pairs.mergeSort fun a b => a.1 ≤ b.1).map Prod.fst = List.range n := by
  have hsorted : (pairs.mergeSort fun a b => a.1 ≤ b.1).Pairwise
      fun a b => decide (a.1 ≤ b.1) = true :=
    List.pairwise_mergeSort (by simp; omega) (by simp; omega) _
  refine List.Perm.eq_of_pairwise (fun _ _ _ _ => Nat.le_antisymm) ?_ List.pairwise_le_range ?_
  · rw [List.pairwise_map]
    exact hsorted.imp of_decide_eq_true
  · exact ((List.mergeSort_perm _ _).map Prod.fst).trans h

theorem map_getElem?_range (items : List α) :
    (List.range items.length).map (fun i => items[i]?) = items.map some :=
  List.ext_getElem (by simp) fun i _ _ => by simp

/-- What stands at all the positions, one after the other, is the list. -/
theorem map_snd_of_positions {items : List α} {pairs : List (Nat × α)}
    (hpositions : pairs.map Prod.fst = List.range items.length)
    (h : ∀ pair ∈ pairs, some pair.2 = items[pair.1]?) : pairs.map Prod.snd = items := by
  have hvalues : (pairs.map Prod.snd).map some = items.map some := by
    calc (pairs.map Prod.snd).map some
        = pairs.map fun pair => items[pair.1]? := by
          rw [List.map_map]
          exact List.map_congr_left h
      _ = (List.range items.length).map fun i => items[i]? := by
          rw [← hpositions, List.map_map]
          rfl
      _ = items.map some := map_getElem?_range items
  exact (List.map_inj_right fun _ _ => Option.some.inj).mp hvalues

/-- What is taken in any order of the positions is put back. -/
theorem byPosition_filterMap {items : List α} {order : List Nat}
    (h : order.Perm (List.range items.length)) :
    byPosition order (order.filterMap fun i => items[i]?) = items := by
  have hsome : ∀ i ∈ order, items[i]?.isSome = true := by
    intro i hi
    have hlt : i < items.length := List.mem_range.mp (h.mem_iff.mp hi)
    rw [List.getElem?_eq_getElem hlt]
    rfl
  -- Every position is in range, so the zip pairs each with what stands there.
  have hzip := zip_filterMap hsome
  refine map_snd_of_positions (positions_mergeSort ?_) ?_
  · have hpositions : (order.zip (order.filterMap fun i => items[i]?)).map Prod.fst = order := by
      simpa [List.map_map, Function.comp_def] using congrArg (List.map Prod.fst) hzip
    rw [hpositions]
    exact h
  · intro pair hpair
    have hmem := List.mem_map_of_mem (f := fun pair => (pair.1, some pair.2))
      ((List.mergeSort_perm _ _).mem_iff.mp hpair)
    rw [hzip] at hmem
    obtain ⟨i, -, hi⟩ := List.mem_map.mp hmem
    rw [Prod.mk.injEq] at hi
    rw [← hi.1, hi.2]

/-! ### The module -/

/-- The endpoints tag by tag. -/
def discovered (endpoints : List Endpoint) : List Endpoint :=
  (Endpoint.discoveryOrder (Endpoint.group endpoints)).filterMap fun i => endpoints[i]?

/-- What the exported object holds. -/
def exported (endpoints : List Endpoint) : List TagBuckets :=
  allBuckets (Endpoint.group endpoints) (endpoints.map Plan.outline)

theorem discovered_perm (endpoints : List Endpoint) : (discovered endpoints).Perm endpoints := by
  have hall : (List.range endpoints.length).filterMap (fun i => endpoints[i]?) = endpoints := by
    have h := congrArg (List.filterMap id) (map_getElem?_range endpoints)
    rw [List.filterMap_map, List.filterMap_map] at h
    exact h.trans List.filterMap_some
  have h := (Endpoint.discoveryOrder_perm endpoints).filterMap fun i => endpoints[i]?
  rw [hall] at h
  exact h

theorem byPosition_discovered (endpoints : List Endpoint) :
    byPosition (Endpoint.discoveryOrder (Endpoint.group endpoints))
        ((discovered endpoints).map Plan.outline)
      = endpoints.map Plan.outline := by
  have horder := Endpoint.discoveryOrder_perm endpoints
  rw [← List.length_map (f := Plan.outline)] at horder
  have h := byPosition_filterMap horder
  rw [discovered, List.map_filterMap]
  simpa only [List.getElem?_map] using h

/-- The fragments of the module and the warnings about its hooks, where nothing is refused. -/
def moduleOf (options : ApiOptions) (entities : List String) (endpoints : List Endpoint) :
    List String × List String :=
  (preamble options entities
      :: (discovered endpoints).flatMap (fun e => e.declarations.map Declaration.text)
      ++ [objectText (exported endpoints)],
    (exported endpoints).flatMap TagBuckets.warnings)

/-- The object stands at the end of the module. -/
theorem getLast?_moduleOf (options : ApiOptions) (entities : List String)
    (endpoints : List Endpoint) :
    (moduleOf options entities endpoints).1.getLast? = some (objectText (exported endpoints)) :=
  List.getLast?_concat

/-- There is a module exactly if what the endpoints declare are new names that differ from each
other. -/
theorem moduleFragments_eq_ok_iff {options : ApiOptions} {entities : List String}
    {endpoints : List Endpoint} {result : List String × List String} :
    moduleFragments options entities endpoints = .ok result
      ↔ Plan.Claimable entities (endpoints.flatMap Endpoint.declaredNames)
        ∧ result = moduleOf options entities endpoints := by
  have hnames : ((discovered endpoints).flatMap Endpoint.declaredNames).Perm
      (endpoints.flatMap Endpoint.declaredNames) :=
    (discovered_perm endpoints).flatMap_right Endpoint.declaredNames
  rw [← Plan.claimable_perm hnames, moduleFragments]
  constructor
  · intro h
    obtain ⟨planned, hplanned, h⟩ := bind_eq_ok.mp h
    obtain ⟨hclaimable, rfl⟩ := Plan.ofEndpoints_eq_ok_iff.mp hplanned
    rw [← discovered, byPosition_discovered, List.flatMap_map] at h
    cases h
    exact ⟨hclaimable, rfl⟩
  · rintro ⟨hclaimable, rfl⟩
    refine bind_eq_ok.mpr ⟨_, Plan.ofEndpoints_eq_ok_iff.mpr ⟨hclaimable, rfl⟩, ?_⟩
    rw [← discovered, byPosition_discovered, List.flatMap_map]
    rfl

end TypedClients.Hook
