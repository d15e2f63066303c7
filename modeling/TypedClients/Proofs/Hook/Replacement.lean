import TypedClients.Proofs.Hook.ObjectText
import TypedClients.Proofs.Name.Version

/-!
# Hooks that take the place of others

A bucket is filled with one plan after the other. A plan whose hook is there already takes the place
of the earlier one and is warned about, so of the plans with one hook the last is kept, where the
first stood (`lastWins_bucketOf`). In the object of a tag the hooks of its plain bucket stand before
its versions. A hook begins with a `u` and the key of a version, as it is printed, with a `v` or a
quote, so no key is printed twice in the object of a tag (`moduleFragments_lastWins`).

## What is proved

`moduleFragments_lastWins` — for every module of hooks whose endpoints have derived names:

* its last fragment is the text of the object, and this is what `objectLines` gives from the
  endpoints: for each tag a block with the hooks that count and the blocks of its versions;
* in the object of a tag, and in that of a version, no key is there twice, neither as it is nor as
  it is printed;
* in each bucket the last plan of a hook counts, where the first stood, and each plan whose hook was
  there before is warned about; these are all the warnings.

## What is assumed

That names are derived is used for versions: they are digits, so different versions have different
keys. For endpoints of documents it holds by the way they are made.
-/

namespace TypedClients

namespace Name

theorem head?_hook (name : String) : (hook name).toList.head? = some 'u' := by
  rw [hook, String.toList_append]
  rfl

/-- The version of an operation whose names are derived is a number. -/
theorem isNumber_of_derived {endpoint : Endpoint} (derived : endpoint.Derived) {version : String}
    (h : endpoint.name.version = some version) : IsNumber version.toList := by
  obtain ⟨id, hname⟩ := derived
  rw [hname] at h
  obtain ⟨digits, hversion, rfl⟩ := Option.map_eq_some_iff.mp h
  obtain ⟨-, -, -, -, -, -, -, hdigits, -⟩ := isVersion_of_version? hversion
  rw [String.toList_ofList]
  exact hdigits

end Name

namespace Hook

/-! ### One bucket -/

/-- The plans whose hooks stand before them already, in order. -/
def repeated (plans : List Plan) : List Plan :=
  (plans.zipIdx.filter fun p => decide (p.1.hook ∈ (plans.take p.2).map Plan.hook)).map Prod.fst

theorem repeated_append_singleton (plans : List Plan) (plan : Plan) :
    repeated (plans ++ [plan])
      = repeated plans ++ if plan.hook ∈ plans.map Plan.hook then [plan] else [] := by
  have hearlier : ∀ p ∈ plans.zipIdx,
      decide (p.1.hook ∈ ((plans ++ [plan]).take p.2).map Plan.hook)
        = decide (p.1.hook ∈ (plans.take p.2).map Plan.hook) := by
    rintro ⟨other, i⟩ hp
    have hat := List.mem_zipIdx_iff_getElem?.mp hp
    have hi : i < plans.length := (List.getElem?_eq_some_iff.mp hat).1
    rw [List.take_append_of_le_length (Nat.le_of_lt hi)]
  rw [repeated, List.zipIdx_append, List.filter_append, List.map_append,
    List.filter_congr hearlier, ← repeated]
  congr 1
  by_cases h : plan.hook ∈ plans.map Plan.hook
  · simp only [List.zipIdx_cons, List.zipIdx_nil, Nat.zero_add, List.take_left, h, decide_true,
      if_true, List.filter_cons_of_pos, List.filter_nil, List.map_cons, List.map_nil]
  · simp only [List.zipIdx_cons, List.zipIdx_nil, Nat.zero_add, List.take_left, h, decide_false,
      if_false, Bool.false_eq_true, not_false_eq_true, List.filter_cons_of_neg, List.filter_nil,
      List.map_nil]

/-- Of the plans with one hook the last is kept, in the place of the first, and every plan but the
first is warned about. -/
structure LastWins (name : String) (depth : Nat) (plans : List Plan) (bucket : Bucket) : Prop where
  order : Keyed.FirstMet (plans.map Plan.hook) (Keyed.keys bucket.hooks)
  last : ∀ earlier plan later, plans = earlier ++ plan :: later →
    (∀ other ∈ later, other.hook ≠ plan.hook) →
      Keyed.get? plan.hook bucket.hooks = some (indent depth (source plan))
  warnings : bucket.warnings = (repeated plans).map (warning name)

theorem keys_bucketOf (name : String) (depth : Nat) (plans : List Plan) :
    Keyed.keys (bucketOf name depth plans).hooks = Keyed.distinct (plans.map Plan.hook) := by
  rw [hooks_bucketOf, Keyed.keys_ofList, List.map_map]
  rfl

theorem warnings_bucketOf (name : String) (depth : Nat) (plans : List Plan) :
    (bucketOf name depth plans).warnings = (repeated plans).map (warning name) := by
  induction plans using List.reverseRecOn with
  | nil => rfl
  | append_singleton plans plan ih =>
    have hkeys := keys_bucketOf name depth plans
    rw [bucketOf, List.foldl_append, ← bucketOf, List.foldl_cons, List.foldl_nil, Bucket.add,
      repeated_append_singleton, List.map_append, ← ih]
    simp only [hkeys, Keyed.mem_distinct]
    split
    · rfl
    · exact (List.append_nil _).symm

theorem lastWins_bucketOf (name : String) (depth : Nat) (plans : List Plan) :
    LastWins name depth plans (bucketOf name depth plans) where
  order := by
    rw [keys_bucketOf]
    exact Keyed.firstMet_distinct _
  last earlier plan later hplans hlater := by
    rw [hooks_bucketOf, hplans, List.map_append, List.map_cons]
    refine Keyed.get?_ofList_of_last ?_
    rw [List.forall_mem_map]
    exact hlater
  warnings := warnings_bucketOf name depth plans

/-! ### The keys of a tag's object -/

/-- The keys of a tag's object as they are printed: its hooks', and then its versions'. -/
def TagBuckets.memberKeys (t : TagBuckets) : List String :=
  Keyed.keys t.plain.hooks ++ t.versions.map Prod.fst

theorem head?_of_mem_keys_bucket {endpoints : List Endpoint} {tag : String}
    {version : Option String} {key : String}
    (h : key ∈ Keyed.keys (bucket endpoints tag version).hooks) : key.toList.head? = some 'u' := by
  rw [bucket, keys_bucketOf, Keyed.mem_distinct, List.map_map] at h
  obtain ⟨endpoint, -, rfl⟩ := List.mem_map.mp h
  exact Name.head?_hook endpoint.name.name

theorem isNumber_of_mem_versionsOf {endpoints : List Endpoint}
    (derived : ∀ endpoint ∈ endpoints, endpoint.Derived) {tag version : String}
    (h : version ∈ Endpoint.versionsOf endpoints tag) : Name.IsNumber version.toList := by
  rw [Endpoint.versionsOf, Keyed.mem_distinct, List.mem_filterMap] at h
  obtain ⟨endpoint, hendpoint, hversion⟩ := h
  exact Name.isNumber_of_derived (derived endpoint (List.mem_of_mem_filter hendpoint)) hversion

/-- The keys of hooks differ from each other and from those of versions, and those from each other.
The keys of versions may be written in any way that keeps them apart from hooks. -/
theorem nodup_keys_append {endpoints : List Endpoint}
    (derived : ∀ endpoint ∈ endpoints, endpoint.Derived) (tag : String) (write : String → String)
    (injective : write.Injective)
    (apart : ∀ version, (write (Name.versionKey version)).toList.head? ≠ some 'u') :
    (Keyed.keys (bucket endpoints tag none).hooks
      ++ (Endpoint.versionsOf endpoints tag).map fun v => write (Name.versionKey v)).Nodup := by
  rw [List.nodup_append]
  refine ⟨(lastWins_bucketOf _ _ _).order.nodup, ?_, ?_⟩
  · refine List.Nodup.map_on ?_ (Keyed.nodup_distinct _)
    intro first hfirst second hsecond h
    exact Name.versionKey_inj (isNumber_of_mem_versionsOf derived hfirst)
      (isNumber_of_mem_versionsOf derived hsecond) (injective h)
  · rintro key hkey other hother rfl
    obtain ⟨version, -, rfl⟩ := List.mem_map.mp hother
    exact apart version (head?_of_mem_keys_bucket hkey)

theorem head?_propertyKey_versionKey (version : String) :
    (Script.propertyKey (Name.versionKey version)).toList.head? ≠ some 'u' := by
  rw [Script.propertyKey]
  split
  · rw [Name.head?_versionKey]
    decide
  · rw [Script.quote, Text.toList_lift, List.head?_cons]
    decide

theorem memberKeys_tagMember (endpoints : List Endpoint) (tag : String) :
    (tagMember endpoints tag).memberKeys
      = Keyed.keys (bucket endpoints tag none).hooks ++ (Endpoint.versionsOf endpoints tag).map
          fun version => Script.propertyKey (Name.versionKey version) := by
  simp only [TagBuckets.memberKeys, tagMember, List.map_map, Function.comp_def]

/-! ### The object -/

/-- The last part of the module is the object, printed from the endpoints piece by piece: a block for
each tag, in which the hooks that count stand first and then a block for each version. It has a member
for each tag. In the object of a tag all keys differ, as they are and as they are printed, and so do
those in the object of one of its versions. In every bucket the last plan with a hook counts, in the
place of the first, and there is a warning for each plan whose hook the bucket has already; these
warnings, bucket by bucket, are all there are. A hook is written under its key, behind its doc
comment. -/
theorem moduleFragments_lastWins {endpoints : List Endpoint} {options : ApiOptions}
    {entities fragments warnings : List String}
    (derived : ∀ endpoint ∈ endpoints, endpoint.Derived)
    (made : moduleFragments options entities endpoints = .ok (fragments, warnings)) :
    fragments.getLast? = some (objectText (exported endpoints)) ∧
      objectText (exported endpoints) = String.join (objectLines endpoints) ∧
      exported endpoints
        = (Keyed.distinct (endpoints.map Endpoint.tag)).map (tagMember endpoints) ∧
      (∀ tag, (tagMember endpoints tag).memberKeys.Nodup ∧
        (Keyed.keys (bucket endpoints tag none).hooks
          ++ (Endpoint.versionsOf endpoints tag).map Name.versionKey).Nodup ∧
        ∀ entry ∈ (tagMember endpoints tag).versions, (Keyed.keys entry.2.hooks).Nodup) ∧
      (∀ tag version, LastWins (bucketName tag version) (bucketIndent version)
        ((bucketEndpoints endpoints tag version).map Plan.outline)
        (bucket endpoints tag version)) ∧
      (∀ plan, ∃ rest,
        source plan = docComment plan.endpoint.summary ++ (plan.hook ++ (": (" ++ rest))) ∧
      warnings = (Keyed.distinct (endpoints.map Endpoint.tag)).flatMap fun tag =>
        (tagMember endpoints tag).warnings := by
  obtain ⟨-, hresult⟩ := moduleFragments_eq_ok_iff.mp made
  obtain ⟨rfl, rfl⟩ := Prod.mk.inj hresult
  refine ⟨getLast?_moduleOf options entities endpoints, objectText_exported endpoints,
    exported_eq endpoints, fun tag => ⟨?_, ?_, ?_⟩, fun tag version => lastWins_bucketOf _ _ _,
    source_eq_append, ?_⟩
  · rw [memberKeys_tagMember]
    exact nodup_keys_append derived tag Script.propertyKey (fun _ _ => Script.propertyKey_inj.mp)
      head?_propertyKey_versionKey
  · refine nodup_keys_append derived tag id Function.injective_id fun version => ?_
    rw [id, Name.head?_versionKey]
    decide
  · intro entry hentry
    obtain ⟨version, -, rfl⟩ := List.mem_map.mp hentry
    exact (lastWins_bucketOf _ _ _).order.nodup
  · rw [exported_eq, List.flatMap_map]

/-- A query that is defined twice, and once in another version. -/
def reopened : List Endpoint :=
  [fetch "getPet" "pets", fetch "listPets" "pets", fetch "get_pet" "pets",
    fetch "getPet_v2" "pets"]

theorem moduleFragments_lastWins_reopened : ∃ fragments,
    moduleFragments {} ["Pet"] reopened
        = .ok (fragments, ["hook `useGetPet` defined twice in `pets`, get /get_pet wins"]) ∧
      (tagMember reopened "pets").memberKeys = ["useGetPet", "useListPets", "v2"] ∧
      (tagMember reopened "pets").memberKeys.Nodup ∧
      Keyed.get? "useGetPet" (bucket reopened "pets" none).hooks
        = some (indent tagIndent (source (Plan.outline (fetch "get_pet" "pets")))) := by
  have hclaimable : Plan.Claimable ["Pet"] (reopened.flatMap Endpoint.declaredNames) := by
    decide
  have hderived : ∀ endpoint ∈ reopened, endpoint.Derived := by
    rw [reopened, List.forall_mem_cons, List.forall_mem_cons, List.forall_mem_cons,
      List.forall_mem_singleton]
    exact ⟨⟨_, rfl⟩, ⟨_, rfl⟩, ⟨_, rfl⟩, ⟨_, rfl⟩⟩
  have made : moduleFragments {} ["Pet"] reopened = .ok (moduleOf {} ["Pet"] reopened) :=
    moduleFragments_eq_ok_iff.mpr ⟨hclaimable, rfl⟩
  obtain ⟨-, -, -, hkeys, hwins, -, hwarnings⟩ := moduleFragments_lastWins hderived made
  have hreported : (moduleOf {} ["Pet"] reopened).2
      = ["hook `useGetPet` defined twice in `pets`, get /get_pet wins"] := by
    refine hwarnings.trans ?_
    decide
  refine ⟨(moduleOf {} ["Pet"] reopened).1, ?_, ?_, (hkeys "pets").1, ?_⟩
  · rw [made, ← hreported]
  · rw [memberKeys_tagMember]
    decide
  · exact (hwins "pets" none).last [Plan.outline (fetch "getPet" "pets"),
      Plan.outline (fetch "listPets" "pets")] _ [] rfl fun _ h => absurd h List.not_mem_nil

end Hook

end TypedClients
