import TypedClients.Endpoint.Grouping
import TypedClients.Proofs.Keyed

/-!
# Where an endpoint is grouped

There is one group for each tag and, inside a group, one bucket for each version, in the order in
which they are first met. A bucket holds the positions of the endpoints of its tag and version, in
ascending order (`group_eq_table`). Taken together the groups hold every position once
(`discoveryOrder_perm`).

## How it is proved

`group_eq_table` gives the groups in closed form: for each tag in its order, for each of its
versions in theirs, the positions that belong there. The induction is over the list of endpoints
from its end, as grouping adds one endpoint to what is there. Each step changes the table at one
tag, and inside it at one version or at the positions without any.

`discoveryOrder_perm` follows from the table, since every position belongs to one tag and one
version. That the positions of a bucket ascend needs no sorting; that those of a tag do is because
they are sorted.
-/

namespace TypedClients

/-! ### The groups as tables -/

/-- The positions of the endpoints that are kept, in ascending order. -/
def Endpoint.positions (endpoints : List Endpoint) (keep : Endpoint → Bool) : List Nat :=
  (endpoints.zipIdx.filter fun p => keep p.1).map Prod.snd

/-- The versions of a tag's endpoints, in the order in which they are first met. -/
def Endpoint.versionsOf (endpoints : List Endpoint) (tag : String) : List String :=
  Keyed.distinct ((endpoints.filter fun e => e.tag == tag).filterMap fun e => e.name.version)

/-- The positions of the endpoints of a tag and version. -/
def Endpoint.bucketPositions (endpoints : List Endpoint) (tag : String) (version : Option String) :
    List Nat :=
  Endpoint.positions endpoints fun e => e.tag == tag && e.name.version == version

/-- The buckets of a tag. -/
def Buckets.ofTag (endpoints : List Endpoint) (tag : String) : Buckets :=
  { unversioned := Endpoint.bucketPositions endpoints tag none
    versions := Keyed.table (Endpoint.versionsOf endpoints tag) fun version =>
      Endpoint.bucketPositions endpoints tag (some version) }

namespace Endpoint

theorem positions_append_singleton (endpoints : List Endpoint) (endpoint : Endpoint)
    (keep : Endpoint → Bool) :
    positions (endpoints ++ [endpoint]) keep
      = positions endpoints keep ++ if keep endpoint then [endpoints.length] else [] := by
  simp only [positions, List.zipIdx_append, List.filter_append, List.map_append, Nat.zero_add]
  by_cases h : keep endpoint = true <;> simp [h]

theorem mem_positions {endpoints : List Endpoint} {keep : Endpoint → Bool} {i : Nat} :
    i ∈ positions endpoints keep
      ↔ ∃ endpoint, endpoints[i]? = some endpoint ∧ keep endpoint = true := by
  simp only [positions, List.mem_map, List.mem_filter, Prod.exists, List.mem_zipIdx_iff_getElem?]
  constructor
  · rintro ⟨endpoint, j, ⟨hj, hkeep⟩, rfl⟩
    exact ⟨endpoint, hj, hkeep⟩
  · rintro ⟨endpoint, hi, hkeep⟩
    exact ⟨endpoint, i, ⟨hi, hkeep⟩, rfl⟩

theorem bucketPositions_append_singleton (endpoints : List Endpoint) (endpoint : Endpoint)
    (tag : String) (version : Option String) :
    bucketPositions (endpoints ++ [endpoint]) tag version
      = if endpoint.tag = tag ∧ endpoint.name.version = version then
          bucketPositions endpoints tag version ++ [endpoints.length]
        else bucketPositions endpoints tag version := by
  rw [bucketPositions, positions_append_singleton]
  by_cases h : endpoint.tag = tag ∧ endpoint.name.version = version
  · simp [h, bucketPositions]
  · simp [h, bucketPositions]

theorem group_append_singleton (endpoints : List Endpoint) (endpoint : Endpoint) :
    group (endpoints ++ [endpoint])
      = Keyed.update endpoint.tag ⟨[], []⟩
          (fun buckets => buckets.add endpoint.name.version endpoints.length)
          (group endpoints) := by
  simp only [group, List.zipIdx_append, List.foldl_append, List.zipIdx_cons, List.zipIdx_nil,
    List.foldl_cons, List.foldl_nil, Nat.zero_add]

theorem versionsOf_append_singleton (endpoints : List Endpoint) (endpoint : Endpoint)
    (tag : String) :
    versionsOf (endpoints ++ [endpoint]) tag
      = match endpoint.name.version with
        | none => versionsOf endpoints tag
        | some version =>
          if endpoint.tag = tag ∧ version ∉ versionsOf endpoints tag then
            versionsOf endpoints tag ++ [version]
          else versionsOf endpoints tag := by
  unfold versionsOf
  rw [List.filter_append, List.filterMap_append]
  rcases hversion : endpoint.name.version with _ | version
  · by_cases htag : endpoint.tag = tag <;> simp [htag, hversion]
  · by_cases htag : endpoint.tag = tag
    · simp only [htag, List.filter_cons, beq_self_eq_true, if_true, List.filter_nil,
        List.filterMap_cons, hversion, List.filterMap_nil, true_and, ite_not]
      exact Keyed.distinct_append_singleton _ _
    · simp [htag]

theorem bucketPositions_eq_nil {endpoints : List Endpoint} {tag version : String}
    (h : version ∉ versionsOf endpoints tag) :
    bucketPositions endpoints tag (some version) = [] := by
  rw [List.eq_nil_iff_forall_not_mem]
  intro i hi
  obtain ⟨endpoint, hendpoint, hkeep⟩ := mem_positions.mp hi
  simp only [Bool.and_eq_true, beq_iff_eq] at hkeep
  apply h
  rw [versionsOf, Keyed.mem_distinct, List.mem_filterMap]
  refine ⟨endpoint, List.mem_filter.mpr ⟨List.mem_of_getElem? hendpoint, ?_⟩, hkeep.2⟩
  simp [hkeep.1]

/-- The buckets of a tag are those before the last endpoint, to which that endpoint is added if it
has the tag. -/
theorem ofTag_append_singleton (endpoints : List Endpoint) (endpoint : Endpoint) (tag : String) :
    Buckets.ofTag (endpoints ++ [endpoint]) tag
      = if tag = endpoint.tag then
          (Buckets.ofTag endpoints tag).add endpoint.name.version endpoints.length
        else Buckets.ofTag endpoints tag := by
  -- Only the endpoint's own tag changes, and there only the bucket of its version.
  simp only [Buckets.ofTag, versionsOf_append_singleton, bucketPositions_append_singleton]
  by_cases htag : tag = endpoint.tag
  · subst htag
    rcases hversion : endpoint.name.version with _ | version
    · simp [Buckets.add]
    · have hversions : (versionsOf endpoints endpoint.tag).Nodup := Keyed.nodup_distinct _
      rw [if_pos rfl]
      simp only [Buckets.add]
      rw [Keyed.update_table hversions bucketPositions_eq_nil]
      simp [eq_comm]
  · have htag' : endpoint.tag ≠ tag := Ne.symm htag
    rcases hversion : endpoint.name.version with _ | version <;> simp [htag, htag']

theorem ofTag_eq_empty {endpoints : List Endpoint} {tag : String}
    (h : tag ∉ Keyed.distinct (endpoints.map Endpoint.tag)) :
    Buckets.ofTag endpoints tag = ⟨[], []⟩ := by
  have hother : ∀ endpoint ∈ endpoints, ¬ (endpoint.tag == tag) = true := by
    intro endpoint hendpoint htag
    rw [Keyed.mem_distinct] at h
    exact h (beq_iff_eq.mp htag ▸ List.mem_map_of_mem hendpoint)
  have hversions : versionsOf endpoints tag = [] := by
    rw [versionsOf, List.filter_eq_nil_iff.mpr hother]
    rfl
  have hplain : bucketPositions endpoints tag none = [] := by
    rw [List.eq_nil_iff_forall_not_mem]
    intro i hi
    obtain ⟨endpoint, hendpoint, hkeep⟩ := mem_positions.mp hi
    exact hother endpoint (List.mem_of_getElem? hendpoint) (Bool.and_eq_true_iff.mp hkeep).1
  rw [Buckets.ofTag, hversions, hplain]
  rfl

/-- There is one group for each tag, and it holds what belongs to the tag. -/
theorem group_eq_table (endpoints : List Endpoint) :
    group endpoints
      = Keyed.table (Keyed.distinct (endpoints.map Endpoint.tag)) (Buckets.ofTag endpoints) := by
  induction endpoints using List.reverseRecOn with
  | nil => rfl
  | append_singleton endpoints endpoint ih =>
    have htags : (Keyed.distinct (endpoints.map Endpoint.tag)).Nodup := Keyed.nodup_distinct _
    rw [group_append_singleton, ih, Keyed.update_table htags ofTag_eq_empty, List.map_append,
      List.map_singleton, Keyed.distinct_append_singleton]
    congr 1
    funext tag
    rw [ofTag_append_singleton]

/-! ### Every position once -/

theorem positions_add_perm (buckets : Buckets) (version : Option String) (position : Nat) :
    (buckets.add version position).positions.Perm (buckets.positions ++ [position]) := by
  cases version with
  | none =>
    rw [Buckets.positions, Buckets.positions, Buckets.add, List.append_assoc, List.append_assoc]
    exact List.perm_append_comm.append_left _
  | some version =>
    have hversions : ((buckets.add (some version) position).versions.flatMap Prod.snd).Perm
        (buckets.versions.flatMap Prod.snd ++ [position]) :=
      Keyed.flatMap_update_perm id rfl (fun _ => List.Perm.refl _) version buckets.versions
    rw [Buckets.positions, Buckets.positions, Buckets.add, List.append_assoc]
    exact hversions.append_left _

/-- The groups hold the position of every endpoint, and each once. -/
theorem discoveryOrder_perm (endpoints : List Endpoint) :
    (discoveryOrder (group endpoints)).Perm (List.range endpoints.length) := by
  induction endpoints using List.reverseRecOn with
  | nil => exact List.Perm.refl _
  | append_singleton endpoints endpoint ih =>
    rw [group_append_singleton, List.length_append, List.length_singleton, List.range_succ]
    refine List.Perm.trans ?_ (ih.append_right _)
    refine Keyed.flatMap_update_perm
      (fun buckets : Buckets => buckets.positions.mergeSort (· ≤ ·)) ?_ ?_ _ _
    · exact List.mergeSort_nil
    intro buckets
    refine (List.mergeSort_perm _ _).trans ?_
    refine (positions_add_perm _ _ _).trans ?_
    exact (List.mergeSort_perm _ _).symm.append_right _

end Endpoint

end TypedClients
