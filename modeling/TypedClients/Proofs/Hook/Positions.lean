import TypedClients.Proofs.Hook.QueryKey

/-!
# Positions, buckets and plans

Grouping puts the position of an endpoint into one bucket, that of the endpoint's tag and version
(`Endpoint.parts_group`). In the order in which the endpoints are planned their positions stand tag
by tag, and ascend inside a tag (`Endpoint.discoveryOrder_eq`). No position is missed and none is
taken twice, so the plans, put back into the order of the endpoints, stand where their endpoints do,
and a position in a bucket is always that of a plan (`moduleFragments_positions`).

## What is proved

`moduleFragments_positions` — for every list of endpoints, the positions are parted by tag and
version (`Endpoint.Parts`): each is in one bucket, the buckets ascend, and tags and versions stand
as they are first met. And if there is a module, the list of plans that its object is made from has
at each position the plan of the endpoint there, and has a plan for every position in a bucket. So
looking a position up in it never fails.

The proof goes through the table of groups, and not through the steps of grouping.
-/

namespace TypedClients

namespace Endpoint

/-! ### Ascending positions -/

/-- The positions are those at which an endpoint is kept. -/
theorem positions_eq_filter_range (endpoints : List Endpoint) (keep : Endpoint → Bool) :
    positions endpoints keep
      = (List.range endpoints.length).filter fun i => endpoints[i]?.any keep := by
  induction endpoints using List.reverseRecOn with
  | nil => rfl
  | append_singleton endpoints endpoint ih =>
    rw [positions_append_singleton, ih, List.length_append, List.length_singleton,
      List.range_succ, List.filter_append]
    congr 1
    · refine List.filter_congr fun i hi => ?_
      rw [List.getElem?_append_left (List.mem_range.mp hi)]
    · by_cases h : keep endpoint = true <;> simp [h]

theorem pairwise_bucketPositions (endpoints : List Endpoint) (tag : String)
    (version : Option String) : (bucketPositions endpoints tag version).Pairwise (· < ·) := by
  rw [bucketPositions, positions_eq_filter_range]
  exact List.pairwise_lt_range.filter _

theorem mem_bucketPositions {endpoints : List Endpoint} {i : Nat} {tag : String}
    {version : Option String} : i ∈ bucketPositions endpoints tag version ↔
      ∃ endpoint, endpoints[i]? = some endpoint ∧
        (endpoint.tag, endpoint.name.version) = (tag, version) := by
  simp [bucketPositions, mem_positions]

/-- The positions of a tag's endpoints, in ascending order. -/
def tagPositions (endpoints : List Endpoint) (tag : String) : List Nat :=
  (List.range endpoints.length).filter fun i => endpoints[i]?.any fun e => e.tag == tag

theorem positions_ofTag_perm (endpoints : List Endpoint) (tag : String) :
    (Buckets.ofTag endpoints tag).positions.Perm (tagPositions endpoints tag) := by
  rw [tagPositions, ← positions_eq_filter_range]
  induction endpoints using List.reverseRecOn with
  | nil => exact List.Perm.refl _
  | append_singleton endpoints endpoint ih =>
    rw [ofTag_append_singleton, positions_append_singleton]
    by_cases htag : tag = endpoint.tag
    · rw [if_pos htag, if_pos (beq_iff_eq.mpr htag.symm)]
      exact (positions_add_perm _ _ _).trans (ih.append_right _)
    · rw [if_neg htag, if_neg (fun h => htag (beq_iff_eq.mp h).symm), List.append_nil]
      exact ih

/-- Sorted, the positions in the buckets of a tag are those of its endpoints. -/
theorem mergeSort_positions_ofTag (endpoints : List Endpoint) (tag : String) :
    (Buckets.ofTag endpoints tag).positions.mergeSort (· ≤ ·) = tagPositions endpoints tag := by
  refine @List.Perm.eq_of_pairwise _ (· ≤ ·) _ _ (fun _ _ _ _ => Nat.le_antisymm) ?_ ?_
    ((List.mergeSort_perm _ _).trans (positions_ofTag_perm endpoints tag))
  · exact (List.pairwise_mergeSort (by simp; omega) (by simp; omega) _).imp of_decide_eq_true
  · exact List.pairwise_le_range.filter _

/-- The positions stand tag by tag, and in ascending order inside a tag. -/
theorem discoveryOrder_eq (endpoints : List Endpoint) :
    discoveryOrder (group endpoints)
      = (Keyed.distinct (endpoints.map Endpoint.tag)).flatMap (tagPositions endpoints) := by
  rw [discoveryOrder, group_eq_table, Keyed.table, List.flatMap_map]
  exact List.flatMap_congr fun tag _ => mergeSort_positions_ofTag endpoints tag

/-! ### Buckets -/

/-- All the buckets, each under its tag and version. -/
def bucketsOf (groups : List (String × Buckets)) : List ((String × Option String) × List Nat) :=
  groups.flatMap fun (tag, buckets) =>
    ((tag, none), buckets.unversioned)
      :: buckets.versions.map fun (version, positions) => ((tag, some version), positions)

theorem bucketsOf_group (endpoints : List Endpoint) :
    bucketsOf (group endpoints)
      = Keyed.table (Hook.bucketKeys endpoints) fun key =>
          bucketPositions endpoints key.1 key.2 := by
  rw [bucketsOf, group_eq_table, Keyed.table, Keyed.table, List.flatMap_map, Hook.bucketKeys,
    List.map_flatMap]
  refine List.flatMap_congr fun tag _ => ?_
  simp only [Buckets.ofTag, Keyed.table, List.map_map, List.map_cons, Function.comp_def]

/-- There is a bucket for every endpoint. -/
theorem mem_bucketKeys_of_mem {endpoints : List Endpoint} {endpoint : Endpoint}
    (h : endpoint ∈ endpoints) :
    (endpoint.tag, endpoint.name.version) ∈ Hook.bucketKeys endpoints := by
  refine List.mem_flatMap.mpr ⟨endpoint.tag, Keyed.mem_distinct.mpr (List.mem_map_of_mem h), ?_⟩
  rcases hversion : endpoint.name.version with _ | version
  · exact List.mem_cons_self
  · refine List.mem_cons_of_mem _ (List.mem_map_of_mem (Keyed.mem_distinct.mpr ?_))
    rw [List.mem_filterMap]
    exact ⟨endpoint, List.mem_filter.mpr ⟨h, beq_self_eq_true _⟩, hversion⟩

/-- How groups part the positions of endpoints. -/
structure Parts (endpoints : List Endpoint) (groups : List (String × Buckets)) : Prop where
  /-- Every position is there, and once. -/
  perm : (discoveryOrder groups).Perm (List.range endpoints.length)
  /-- The positions stand tag by tag, and ascend inside a tag. -/
  order : discoveryOrder groups = (Keyed.keys groups).flatMap (tagPositions endpoints)
  tags : Keyed.FirstMet (endpoints.map Endpoint.tag) (Keyed.keys groups)
  versions : ∀ tag buckets, (tag, buckets) ∈ groups →
    Keyed.FirstMet ((endpoints.filter fun e => e.tag == tag).filterMap fun e => e.name.version)
      (Keyed.keys buckets.versions)
  /-- No tag and version have two buckets. -/
  keys : (Keyed.keys (bucketsOf groups)).Nodup
  /-- A position lies in one bucket. -/
  place : ∀ i endpoint, endpoints[i]? = some endpoint →
    ∃! bucket, bucket ∈ bucketsOf groups ∧ i ∈ bucket.2
  /-- A position in a bucket is that of an endpoint of the bucket's tag and version. -/
  own : ∀ bucket ∈ bucketsOf groups, ∀ i ∈ bucket.2, ∃ endpoint, endpoints[i]? = some endpoint ∧
    (endpoint.tag, endpoint.name.version) = bucket.1
  ascending : ∀ bucket ∈ bucketsOf groups, bucket.2.Pairwise (· < ·)

theorem parts_group (endpoints : List Endpoint) : Parts endpoints (group endpoints) where
  perm := discoveryOrder_perm endpoints
  order := by
    rw [discoveryOrder_eq, group_eq_table, Keyed.keys_table]
  tags := by
    rw [group_eq_table, Keyed.keys_table]
    exact Keyed.firstMet_distinct _
  versions tag buckets h := by
    rw [group_eq_table] at h
    obtain ⟨tag, -, h⟩ := List.mem_map.mp h
    cases h
    rw [Buckets.ofTag, Keyed.keys_table]
    exact Keyed.firstMet_distinct _
  keys := by
    rw [bucketsOf_group, Keyed.keys_table]
    exact Hook.nodup_bucketKeys endpoints
  place i endpoint h := by
    rw [bucketsOf_group]
    refine ⟨((endpoint.tag, endpoint.name.version), _), ⟨List.mem_map_of_mem ?_, ?_⟩, ?_⟩
    · exact mem_bucketKeys_of_mem (List.mem_of_getElem? h)
    · exact mem_bucketPositions.mpr ⟨endpoint, h, rfl⟩
    · rintro bucket ⟨hbucket, hi⟩
      obtain ⟨key, -, rfl⟩ := List.mem_map.mp hbucket
      obtain ⟨other, hother, hkey⟩ := mem_bucketPositions.mp hi
      rw [h] at hother
      cases hother
      rw [hkey]
  own bucket hbucket i hi := by
    rw [bucketsOf_group] at hbucket
    obtain ⟨key, -, rfl⟩ := List.mem_map.mp hbucket
    exact mem_bucketPositions.mp hi
  ascending bucket hbucket := by
    rw [bucketsOf_group] at hbucket
    obtain ⟨key, -, rfl⟩ := List.mem_map.mp hbucket
    exact pairwise_bucketPositions endpoints key.1 key.2

end Endpoint

namespace Hook

/-! ### Plans -/

/-- Every position of an endpoint lies in one bucket, that of the endpoint's tag and version; in a
bucket, and inside a tag where the endpoints are planned, positions ascend; tags and versions stand
in the order in which they are first met. If the endpoints are planned, the exported object is made
from the plans in the order of the endpoints: at every position stands the plan of its endpoint, and
a position in a bucket is that of a plan. -/
theorem moduleFragments_positions (endpoints : List Endpoint) :
    Endpoint.Parts endpoints (Endpoint.group endpoints) ∧
    ∀ options entities fragments warnings,
      moduleFragments options entities endpoints = .ok (fragments, warnings) →
      ∃ planned plans : List Plan,
        ((Plan.ofEndpoints (discovered endpoints)).run.run entities).1 = .ok planned ∧
        plans = byPosition (Endpoint.discoveryOrder (Endpoint.group endpoints)) planned ∧
        fragments.getLast? = some (objectText (allBuckets (Endpoint.group endpoints) plans)) ∧
        plans.length = endpoints.length ∧
        (∀ (i : Nat) endpoint, endpoints[i]? = some endpoint → ∃ plan, plans[i]? = some plan ∧
          plan.endpoint = endpoint ∧
          ((Plan.ofEndpoint endpoint).run.run entities).1 = .ok plan) ∧
        ∀ bucket ∈ Endpoint.bucketsOf (Endpoint.group endpoints), ∀ i ∈ bucket.2,
          i < plans.length := by
  have hparts := Endpoint.parts_group endpoints
  refine ⟨hparts, fun options entities fragments warnings made => ?_⟩
  obtain ⟨hclaimable, hresult⟩ := moduleFragments_eq_ok_iff.mp made
  obtain ⟨rfl, rfl⟩ := Prod.mk.inj hresult
  have hplanned : Plan.Claimable entities ((discovered endpoints).flatMap Endpoint.declaredNames) :=
    (Plan.claimable_perm ((discovered_perm endpoints).flatMap_right _)).mpr hclaimable
  refine ⟨_, endpoints.map Plan.outline, Plan.ofEndpoints_eq_ok_iff.mpr ⟨hplanned, rfl⟩,
    (byPosition_discovered endpoints).symm, getLast?_moduleOf options entities endpoints,
    List.length_map _, ?_, ?_⟩
  · intro i endpoint h
    have hnames : endpoint.declaredNames.Sublist (endpoints.flatMap Endpoint.declaredNames) :=
      List.sublist_flatten_of_mem (List.mem_map_of_mem (List.mem_of_getElem? h))
    refine ⟨Plan.outline endpoint, by rw [List.getElem?_map, h, Option.map_some], rfl, ?_⟩
    exact Plan.ofEndpoint_eq_ok_iff.mpr ⟨hclaimable.sublist hnames, rfl⟩
  · intro bucket hbucket i hi
    obtain ⟨endpoint, hendpoint, -⟩ := hparts.own bucket hbucket i hi
    rw [List.length_map]
    exact (List.getElem?_eq_some_iff.mp hendpoint).1

/-- Two tags that take turns, one of them with a version. -/
def visits : List Endpoint :=
  [fetch "getPet_v2" "pets", fetch "getOwner" "owners", fetch "getPet" "pets",
    fetch "listPets_v2" "pets"]

theorem moduleFragments_positions_visits :
    moduleFragments {} ["Pet"] visits = .ok (moduleOf {} ["Pet"] visits) ∧
      Endpoint.bucketsOf (Endpoint.group visits)
        = [(("pets", none), [2]), (("pets", some "2"), [0, 3]), (("owners", none), [1])] ∧
      Endpoint.discoveryOrder (Endpoint.group visits) = [0, 2, 3, 1] ∧
      ∃ plans : List Plan, plans[2]? = some (Plan.outline (fetch "getPet" "pets")) := by
  have hclaimable : Plan.Claimable ["Pet"] (visits.flatMap Endpoint.declaredNames) := by
    decide
  have made : moduleFragments {} ["Pet"] visits = .ok (moduleOf {} ["Pet"] visits) :=
    moduleFragments_eq_ok_iff.mpr ⟨hclaimable, rfl⟩
  obtain ⟨hparts, hplans⟩ := moduleFragments_positions visits
  obtain ⟨planned, plans, -, -, -, -, hplan, -⟩ := hplans _ _ _ _ made
  obtain ⟨plan, hat, -, hrun⟩ := hplan 2 (fetch "getPet" "pets") rfl
  obtain ⟨-, rfl⟩ := Plan.ofEndpoint_eq_ok_iff.mp hrun
  refine ⟨made, by decide, ?_, plans, hat⟩
  rw [hparts.order]
  decide

end Hook

end TypedClients
