import Mathlib.Data.List.Nodup
import TypedClients.Proofs.Hook.Module
import TypedClients.Proofs.Script.Token

/-!
# The keys of the exported object

The object has a member for each tag, and the key of the member is made from the tag. The keys
differ exactly if no two tags have one key (`moduleFragments_keys_nodup_iff`). Nothing refuses two
tags that have: a warning only ever concerns two endpoints of one tag and version. Since a member
of an object literal takes the place of an earlier one with its key, of such tags only the last
keeps its hooks.

## What is proved

* `moduleFragments_keys_nodup_iff` — the object has one member for each tag, in their order and
  under the key made from the tag. The keys are distinct exactly if no two tags have one key.
* Where they are not, a reader of the literal finds the last of the tags with the key
  (`get?_literal_exported`).
* Each warning is about two endpoints of one tag and version whose hooks have one name
  (`exists_of_mem_warnings`), so no warning is about tags.

`moduleFragments_annex` is a module with two tags of one key, in which nothing is warned about.
-/

namespace TypedClients.Hook

variable {endpoints : List Endpoint} {tag : String} {version : Option String}

/-! ### The bucket of a tag and version -/

/-- The endpoints of a tag and version. -/
def bucketEndpoints (endpoints : List Endpoint) (tag : String) (version : Option String) :
    List Endpoint :=
  endpoints.filter fun e => e.tag == tag && e.name.version == version

theorem of_mem_bucketEndpoints {e : Endpoint} (h : e ∈ bucketEndpoints endpoints tag version) :
    e.tag = tag ∧ e.name.version = version := by
  simpa using (List.mem_filter.mp h).2

/-- What a bucket is called in warnings. -/
def bucketName (tag : String) : Option String → String
  | none => tag
  | some version => tag ++ "/" ++ Name.versionKey version

/-- The indentation of a bucket's hooks. -/
def bucketIndent : Option String → Nat
  | none => tagIndent
  | some _ => versionIndent

/-- The bucket of a tag and version. -/
def bucket (endpoints : List Endpoint) (tag : String) (version : Option String) : Bucket :=
  bucketOf (bucketName tag version) (bucketIndent version)
    ((bucketEndpoints endpoints tag version).map Plan.outline)

/-- What the object holds for a tag. -/
def tagMember (endpoints : List Endpoint) (tag : String) : TagBuckets :=
  { key := Script.propertyKey (Name.tagKey tag)
    plain := bucket endpoints tag none
    versions := (Endpoint.versionsOf endpoints tag).map fun version =>
      (Script.propertyKey (Name.versionKey version), bucket endpoints tag (some version)) }

theorem filterMap_bucketPositions (endpoints : List Endpoint) (tag : String)
    (version : Option String) :
    (Endpoint.bucketPositions endpoints tag version).filterMap (fun i => endpoints[i]?)
      = bucketEndpoints endpoints tag version := by
  have hpair : ∀ pair ∈ endpoints.zipIdx.filter
      (fun pair => pair.1.tag == tag && pair.1.name.version == version),
      ((fun i => endpoints[i]?) ∘ Prod.snd) pair = (some ∘ Prod.fst) pair := by
    intro pair hpair
    exact List.mem_zipIdx_iff_getElem?.mp (List.mem_filter.mp hpair).1
  have hfst := List.filter_map (f := Prod.fst)
    (p := fun e : Endpoint => e.tag == tag && e.name.version == version) (l := endpoints.zipIdx)
  rw [List.zipIdx_map_fst] at hfst
  rw [Endpoint.bucketPositions, Endpoint.positions, List.filterMap_map, List.filterMap_congr hpair,
    List.filterMap_eq_map, bucketEndpoints, hfst]
  rfl

theorem plansAt_outlines (endpoints : List Endpoint) (positions : List Nat) :
    plansAt (endpoints.map Plan.outline) positions
      = (positions.filterMap fun i => endpoints[i]?).map Plan.outline := by
  simp only [plansAt, List.getElem?_map, List.map_filterMap]

/-- The object has a member for each tag. -/
theorem exported_eq (endpoints : List Endpoint) :
    exported endpoints
      = (Keyed.distinct (endpoints.map Endpoint.tag)).map (tagMember endpoints) := by
  rw [exported, Endpoint.group_eq_table, allBuckets, Keyed.table, List.map_map]
  refine List.map_congr_left fun tag _ => ?_
  simp only [Function.comp_def, tagBuckets, tagMember, Buckets.ofTag, Keyed.table, List.map_map,
    plansAt_outlines, filterMap_bucketPositions, bucket, bucketName, bucketIndent]

/-! ### What is warned about -/

theorem hooks_bucketOf (name : String) (depth : Nat) (plans : List Plan) :
    (bucketOf name depth plans).hooks
      = Keyed.ofList (plans.map fun plan => (plan.hook, indent depth (source plan))) := by
  induction plans using List.reverseRecOn with
  | nil => rfl
  | append_singleton plans plan ih =>
    rw [List.map_append, List.map_singleton, Keyed.ofList_append_singleton, ← ih, bucketOf,
      List.foldl_append]
    rfl

/-- A warning about a bucket concerns two of its hooks that have one name. -/
theorem exists_of_mem_warnings {name : String} {depth : Nat} {plans : List Plan} {text : String}
    (h : text ∈ (bucketOf name depth plans).warnings) :
    ∃ first second, [first, second].Sublist plans ∧ first.hook = second.hook
      ∧ text = warning name second := by
  induction plans using List.reverseRecOn with
  | nil => cases h
  | append_singleton plans plan ih =>
    rw [bucketOf, List.foldl_append, ← bucketOf, List.foldl_cons, List.foldl_nil, Bucket.add] at h
    have hearlier (h : text ∈ (bucketOf name depth plans).warnings) :
        ∃ first second, [first, second].Sublist (plans ++ [plan]) ∧ first.hook = second.hook
          ∧ text = warning name second := by
      obtain ⟨first, second, hsub, hhook, htext⟩ := ih h
      exact ⟨first, second, hsub.trans (List.sublist_append_left _ _), hhook, htext⟩
    split at h
    · next hkey =>
      rcases List.mem_append.mp h with h | h
      · exact hearlier h
      · rw [hooks_bucketOf, Keyed.keys_ofList, Keyed.mem_distinct, List.map_map] at hkey
        obtain ⟨first, hfirst, hhook⟩ := List.mem_map.mp hkey
        refine ⟨first, plan, ?_, hhook, List.mem_singleton.mp h⟩
        exact (List.singleton_sublist.mpr hfirst).append (List.Sublist.refl [plan])
    · exact hearlier h

/-- The text warns that of two endpoints of one tag and version, whose hooks have one name, the
later takes the place of the earlier. -/
def WarnsOfClash (endpoints : List Endpoint) (text : String) : Prop :=
  ∃ first second, [first, second].Sublist endpoints ∧ first.tag = second.tag ∧
    first.name.version = second.name.version ∧
    Name.hook first.name.name = Name.hook second.name.name ∧
    text = warning (bucketName second.tag second.name.version) (Plan.outline second)

theorem hook_outline (endpoint : Endpoint) :
    (Plan.outline endpoint).hook = Name.hook endpoint.name.name := by
  simp only [Plan.outline]

theorem warnsOfClash_of_mem_bucket {text : String}
    (h : text ∈ (bucket endpoints tag version).warnings) : WarnsOfClash endpoints text := by
  obtain ⟨first, second, hsub, hhook, rfl⟩ := exists_of_mem_warnings h
  obtain ⟨pair, hpair, hplans⟩ := List.sublist_map_iff.mp hsub
  obtain ⟨a, rest, rfl, rfl, hrest⟩ := List.map_eq_cons_iff.mp hplans.symm
  obtain ⟨b, others, rfl, rfl, hothers⟩ := List.map_eq_cons_iff.mp hrest
  obtain rfl := List.map_eq_nil_iff.mp hothers
  obtain ⟨hatag, haversion⟩ := of_mem_bucketEndpoints (hpair.subset (by simp : a ∈ [a, b]))
  obtain ⟨hbtag, hbversion⟩ := of_mem_bucketEndpoints (hpair.subset (by simp : b ∈ [a, b]))
  rw [hook_outline, hook_outline] at hhook
  refine ⟨a, b, hpair.trans List.filter_sublist, hatag.trans hbtag.symm,
    haversion.trans hbversion.symm, hhook, ?_⟩
  rw [hbtag, hbversion]

theorem warnsOfClash_of_mem_exported {text : String}
    (h : text ∈ (exported endpoints).flatMap TagBuckets.warnings) :
    WarnsOfClash endpoints text := by
  rw [exported_eq, List.flatMap_map] at h
  obtain ⟨tag, -, h⟩ := List.mem_flatMap.mp h
  rcases List.mem_append.mp h with h | h
  · obtain ⟨entry, hentry, h⟩ := List.mem_flatMap.mp h
    obtain ⟨version, -, rfl⟩ := List.mem_map.mp hentry
    exact warnsOfClash_of_mem_bucket h
  · exact warnsOfClash_of_mem_bucket h

/-! ### The keys -/

/-- What an object literal holds under its keys: of members with one key the last. -/
def literal (members : List TagBuckets) : List (String × TagBuckets) :=
  Keyed.ofList (members.map fun member => (member.key, member))

theorem key_tagMember (endpoints : List Endpoint) (tag : String) :
    (tagMember endpoints tag).key = Script.propertyKey (Name.tagKey tag) := by
  simp only [tagMember]

theorem keys_exported (endpoints : List Endpoint) :
    (exported endpoints).map TagBuckets.key
      = (Keyed.distinct (endpoints.map Endpoint.tag)).map fun tag =>
          Script.propertyKey (Name.tagKey tag) := by
  rw [exported_eq, List.map_map]
  exact List.map_congr_left fun tag _ => key_tagMember endpoints tag

/-- The last of the tags with one key is what the object holds under it. -/
theorem get?_literal_exported {earlier later : List String}
    (htags : Keyed.distinct (endpoints.map Endpoint.tag) = earlier ++ tag :: later)
    (hlast : ∀ other ∈ later, Name.tagKey other ≠ Name.tagKey tag) :
    Keyed.get? (Script.propertyKey (Name.tagKey tag)) (literal (exported endpoints))
      = some (tagMember endpoints tag) := by
  rw [← key_tagMember endpoints tag, literal, exported_eq, htags, List.map_append, List.map_cons,
    List.map_append, List.map_cons]
  refine Keyed.get?_ofList_of_last ?_
  rw [List.map_map, List.forall_mem_map]
  intro other hother hkey
  simp only [Function.comp, key_tagMember, Script.propertyKey_inj] at hkey
  exact hlast other hother hkey

/-- The object has a member for each tag, under the key made from the tag. The keys differ exactly
if the tags of any two endpoints either are one tag or have different keys. Every warning is about
two endpoints of one tag; and the object holds, under the key of several tags, what belongs to the
last. -/
theorem moduleFragments_keys_nodup_iff {options : ApiOptions} {entities : List String}
    {fragments warnings : List String}
    (made : moduleFragments options entities endpoints = .ok (fragments, warnings)) :
    fragments.getLast? = some (objectText (exported endpoints)) ∧
      (exported endpoints).map TagBuckets.key
        = (Keyed.distinct (endpoints.map Endpoint.tag)).map
            (fun tag => Script.propertyKey (Name.tagKey tag)) ∧
      (((exported endpoints).map TagBuckets.key).Nodup
        ↔ ∀ first ∈ endpoints, ∀ second ∈ endpoints,
            Name.tagKey first.tag = Name.tagKey second.tag → first.tag = second.tag) ∧
      (∀ text ∈ warnings, WarnsOfClash endpoints text) ∧
      ∀ earlier tag later, Keyed.distinct (endpoints.map Endpoint.tag) = earlier ++ tag :: later →
        (∀ other ∈ later, Name.tagKey other ≠ Name.tagKey tag) →
        Keyed.get? (Script.propertyKey (Name.tagKey tag)) (literal (exported endpoints))
          = some (tagMember endpoints tag) := by
  obtain ⟨-, hresult⟩ := moduleFragments_eq_ok_iff.mp made
  obtain ⟨rfl, rfl⟩ := Prod.mk.inj hresult
  refine ⟨getLast?_moduleOf options entities endpoints, keys_exported endpoints, ?_,
    fun _ => warnsOfClash_of_mem_exported, fun _ _ _ => get?_literal_exported⟩
  rw [keys_exported, List.nodup_map_iff_inj_on (Keyed.nodup_distinct _)]
  simp only [Keyed.mem_distinct, List.forall_mem_map, Script.propertyKey_inj]

/-- A query of the given tag that nothing has to be declared for. -/
def fetch (id tag : String) : Endpoint :=
  { tag := tag
    method := .get
    path := "/" ++ id
    name := OperationName.derive (some id) .get ("/" ++ id)
    summary := none
    parameters := []
    body := none
    response := some (.ref "Pet") }

/-- Two tags with different keys. -/
def shelter : List Endpoint :=
  [fetch "getPet" "pets", fetch "getOwner" "pet-owners"]

theorem moduleFragments_keys_nodup_shelter :
    moduleFragments {} ["Pet"] shelter = .ok (moduleOf {} ["Pet"] shelter) ∧
      (exported shelter).map TagBuckets.key = ["pets", "petOwners"] ∧
      ((exported shelter).map TagBuckets.key).Nodup := by
  have hclaimable : Plan.Claimable ["Pet"] (shelter.flatMap Endpoint.declaredNames) := by
    decide
  have made : moduleFragments {} ["Pet"] shelter = .ok (moduleOf {} ["Pet"] shelter) :=
    moduleFragments_eq_ok_iff.mpr ⟨hclaimable, rfl⟩
  obtain ⟨-, hkeys, hnodup, -⟩ := moduleFragments_keys_nodup_iff made
  refine ⟨made, ?_, hnodup.mpr ?_⟩
  · rw [hkeys]
    decide
  · decide

/-- Two tags with one key. -/
def annex : List Endpoint :=
  [fetch "getPet" "my-tag", fetch "getOwner" "my_tag"]

/-- Nothing is refused and nothing is warned about, but the object has two members under one key, of
which only the later is kept. -/
theorem moduleFragments_annex : ∃ fragments,
    moduleFragments {} ["Pet"] annex = .ok (fragments, []) ∧
      fragments.getLast? = some (objectText (exported annex)) ∧
      (exported annex).map TagBuckets.key = ["myTag", "myTag"] ∧
      literal (exported annex) = [("myTag", tagMember annex "my_tag")] := by
  have hclaimable : Plan.Claimable ["Pet"] (annex.flatMap Endpoint.declaredNames) := by
    decide
  have hkeys : (exported annex).map TagBuckets.key = ["myTag", "myTag"] := by
    rw [keys_exported]
    decide
  have hwarnings : (exported annex).flatMap TagBuckets.warnings = [] := rfl
  have made : moduleFragments {} ["Pet"] annex = .ok ((moduleOf {} ["Pet"] annex).1, []) :=
    moduleFragments_eq_ok_iff.mpr ⟨hclaimable, Prod.ext rfl hwarnings.symm⟩
  have htags : Keyed.distinct (annex.map Endpoint.tag) = ["my-tag", "my_tag"] := by decide
  have hfirst : (tagMember annex "my-tag").key = "myTag" := by decide
  have hsecond : (tagMember annex "my_tag").key = "myTag" := by decide
  refine ⟨_, made, getLast?_moduleOf {} ["Pet"] annex, hkeys, ?_⟩
  rw [literal, exported_eq, htags, List.map_cons, List.map_singleton, List.map_cons,
    List.map_singleton, hfirst, hsecond, Keyed.ofList]
  simp [Keyed.insert]

end TypedClients.Hook
