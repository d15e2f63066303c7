import TypedClients.Proofs.Hook.Object

/-!
# The keys of queries

The result of a query is kept under the query's key, whose first component is the name of the hook.
Hooks stand in buckets, and inside a bucket no two have one name; but the name of a hook does not
say in which bucket it stands. So the keys of two queries of one tag and version begin
differently, and those of queries of different buckets begin alike as soon as the names of their
operations, without the version markers, are alike in Pascal case
(`moduleFragments_queryKey_head?`).

## What is proved

`moduleFragments_queryKey_head?` — the hooks in the object are those of some of the endpoints, and
of each endpoint once; each query says its key in its text; two keys have the same first component
exactly if the two names are the same in Pascal case; and for two hooks in one bucket that is never
so.

## What is not here

The second component, which is the parameters that the hook is called with. Whether two queries
share a result depends on it as well, and it is not known before the hook runs. Keys of mutations
are not looked up by anything.
-/

namespace TypedClients.Hook

variable {endpoints : List Endpoint}

/-! ### The endpoints whose hooks stand in the object -/

/-- The buckets of the object: of each tag the one without a version, then those of its versions. -/
def bucketKeys (endpoints : List Endpoint) : List (String × Option String) :=
  (Keyed.distinct (endpoints.map Endpoint.tag)).flatMap fun tag =>
    (tag, none) :: (Endpoint.versionsOf endpoints tag).map fun version => (tag, some version)

/-- Of endpoints with one hook the last, in the place of the first. -/
def kept (endpoints : List Endpoint) : List Endpoint :=
  (Keyed.ofList (endpoints.map fun e => (Name.hook e.name.name, e))).map Prod.snd

/-- The endpoints whose hooks stand in the object, in the order of the hooks. -/
def shown (endpoints : List Endpoint) : List Endpoint :=
  (bucketKeys endpoints).flatMap fun b => kept (bucketEndpoints endpoints b.1 b.2)

/-- The hooks that the object holds for a tag, in the order in which they are printed. -/
def TagBuckets.hooks (t : TagBuckets) : List (String × String) :=
  t.plain.hooks ++ t.versions.flatMap fun entry => entry.2.hooks

/-- The hook of an endpoint as it stands in its bucket. -/
def member (endpoint : Endpoint) : String × String :=
  (Name.hook endpoint.name.name,
    indent (bucketIndent endpoint.name.version) (source (Plan.outline endpoint)))

theorem map_hook_kept (endpoints : List Endpoint) :
    (kept endpoints).map (fun e => Name.hook e.name.name)
      = Keyed.distinct (endpoints.map fun e => Name.hook e.name.name) := by
  have hkey : ∀ entry ∈ Keyed.ofList (endpoints.map fun e => (Name.hook e.name.name, e)),
      ((fun e : Endpoint => Name.hook e.name.name) ∘ Prod.snd) entry = entry.1 := by
    intro entry hentry
    obtain ⟨e, -, rfl⟩ := List.mem_map.mp (Keyed.mem_of_mem_ofList hentry)
    rfl
  have hkeys := Keyed.keys_ofList (endpoints.map fun e => (Name.hook e.name.name, e))
  rw [List.map_map] at hkeys
  rw [kept, List.map_map, List.map_congr_left hkey]
  exact hkeys

theorem kept_subperm (endpoints : List Endpoint) : (kept endpoints).Subperm endpoints := by
  have h := Keyed.subperm_ofList (endpoints.map fun e => (Name.hook e.name.name, e))
  rw [List.map_map] at h
  exact h.trans (List.Perm.of_eq (List.map_id endpoints)).subperm

theorem hooks_bucket (endpoints : List Endpoint) (tag : String) (version : Option String) :
    (bucket endpoints tag version).hooks
      = (kept (bucketEndpoints endpoints tag version)).map member := by
  rw [bucket, hooks_bucketOf, List.map_map]
  have hpairs : (bucketEndpoints endpoints tag version).map
        ((fun plan : Plan => (plan.hook, indent (bucketIndent version) (source plan)))
          ∘ Plan.outline)
      = ((bucketEndpoints endpoints tag version).map fun e => (Name.hook e.name.name, e)).map
          fun pair => (pair.1, indent (bucketIndent version) (source (Plan.outline pair.2))) := by
    simp only [List.map_map, Function.comp_def, hook_outline]
  rw [hpairs, Keyed.ofList_map fun e => indent (bucketIndent version) (source (Plan.outline e)),
    kept, List.map_map]
  refine List.map_congr_left fun entry hentry => ?_
  obtain ⟨e, he, rfl⟩ := List.mem_map.mp (Keyed.mem_of_mem_ofList hentry)
  simp only [Function.comp, member, (of_mem_bucketEndpoints he).2]

theorem hooks_exported (endpoints : List Endpoint) :
    (exported endpoints).flatMap TagBuckets.hooks = (shown endpoints).map member := by
  rw [exported_eq, List.flatMap_map, shown, bucketKeys, List.map_flatMap, List.flatMap_assoc]
  refine List.flatMap_congr fun tag _ => ?_
  simp only [TagBuckets.hooks, tagMember, hooks_bucket, List.flatMap_map, List.flatMap_cons]

/-- Every endpoint belongs to one of the buckets. -/
theorem bucketEndpoints_perm (endpoints : List Endpoint) :
    ((bucketKeys endpoints).flatMap fun b => bucketEndpoints endpoints b.1 b.2).Perm endpoints := by
  -- The endpoints are planned tag by tag, each once; inside a tag only the order is another one.
  refine List.Perm.trans ?_ (discovered_perm endpoints)
  rw [discovered, Endpoint.discoveryOrder, Endpoint.group_eq_table, Keyed.table,
    List.flatMap_map, List.filterMap_flatMap, bucketKeys, List.flatMap_assoc]
  refine List.Perm.flatMap_left _ fun tag _ => ?_
  refine List.Perm.trans ?_ ((List.mergeSort_perm _ _).filterMap _).symm
  simp only [Buckets.positions, Buckets.ofTag, Keyed.table, List.flatMap_map,
    List.filterMap_append, List.filterMap_flatMap, filterMap_bucketPositions, List.flatMap_cons]
  exact List.Perm.refl _

theorem nodup_bucketKeys (endpoints : List Endpoint) : (bucketKeys endpoints).Nodup := by
  rw [List.Nodup, bucketKeys, List.pairwise_flatMap]
  constructor
  · intro tag _
    rw [List.pairwise_cons, List.pairwise_map]
    refine ⟨by simp, (Keyed.nodup_distinct _).imp ?_⟩
    simp
  · have hfst : ∀ tag, ∀ b ∈ (tag, none) ::
        (Endpoint.versionsOf endpoints tag).map (fun version => (tag, some version)),
        b.1 = tag := by
      intro tag b hb
      rcases List.mem_cons.mp hb with rfl | hb
      · rfl
      · obtain ⟨version, -, rfl⟩ := List.mem_map.mp hb
        rfl
    refine (Keyed.nodup_distinct _).imp ?_
    rintro first second hne b hfirst _ hsecond rfl
    exact hne ((hfst _ b hfirst).symm.trans (hfst _ b hsecond))

theorem flatMap_subperm {α β : Type} {f g : α → List β} (h : ∀ a, (f a).Subperm (g a))
    (items : List α) : (items.flatMap f).Subperm (items.flatMap g) := by
  induction items with
  | nil => exact List.Subperm.refl _
  | cons a items ih =>
    rw [List.flatMap_cons, List.flatMap_cons]
    exact (h a).append ih

/-- The hooks in the object are those of some of the endpoints, each once. -/
theorem shown_subperm (endpoints : List Endpoint) : (shown endpoints).Subperm endpoints :=
  (flatMap_subperm (fun _ => kept_subperm _) _).trans (bucketEndpoints_perm endpoints).subperm

/-- No two hooks of a tag and version have one name. -/
theorem pairwise_shown (endpoints : List Endpoint) :
    (shown endpoints).Pairwise fun first second =>
      first.tag = second.tag → first.name.version = second.name.version →
        Name.hook first.name.name ≠ Name.hook second.name.name := by
  rw [shown, List.pairwise_flatMap]
  constructor
  -- Inside a bucket a hook takes the place of an earlier one of its name; two buckets differ in tag
  -- or version.
  · intro b _
    have hhooks : ((kept (bucketEndpoints endpoints b.1 b.2)).map
        fun e => Name.hook e.name.name).Nodup := by
      rw [map_hook_kept]
      exact Keyed.nodup_distinct _
    exact (List.pairwise_map.mp hhooks).imp fun hne _ _ => hne
  · refine (nodup_bucketKeys endpoints).imp ?_
    rintro a b hne first hfirst second hsecond htag hversion -
    have hfirst := of_mem_bucketEndpoints ((kept_subperm _).subset hfirst)
    have hsecond := of_mem_bucketEndpoints ((kept_subperm _).subset hsecond)
    apply hne
    ext1
    · rw [← hfirst.1, htag, hsecond.1]
    · rw [← hfirst.2, hversion, hsecond.2]

/-! ### Keys -/

/-- The components of a query's key. -/
def queryKey (plan : Plan) : List String :=
  Script.quote plan.hook :: (plan.paramsType.map fun _ => "params").toList

/-- The line of a query that says its key. -/
def queryKeyLine (plan : Plan) : String :=
  "    queryKey: " ++ ("[" ++ ", ".intercalate (queryKey plan) ++ "]") ++ ",\n"

/-- The key as it is printed. -/
theorem queryKey_text (plan : Plan) : "[" ++ ", ".intercalate (queryKey plan) ++ "]"
    = match plan.paramsType with
      | some _ => "[" ++ Script.quote plan.hook ++ ", params]"
      | none => "[" ++ Script.quote plan.hook ++ "]" := by
  have hliteral : ", params]" = ", " ++ "params" ++ "]" := by decide
  rcases hparams : plan.paramsType with _ | params
  · simp only [queryKey, hparams, Option.map_none, Option.toList_none, String.intercalate_singleton]
  · simp only [queryKey, hparams, hliteral, Option.map_some, Option.toList_some,
      String.intercalate_cons_cons, String.intercalate_singleton, String.append_assoc]

/-- The address of a query. -/
def queryAddress (plan : Plan) : String :=
  match plan.paramsType with
  | some params => queryUrl plan.endpoint (querySource params)
  | none => plan.endpoint.path

/-- The line of a query that says its address. -/
def addressLine (plan : Plan) : String :=
  "        .get<" ++ plan.responseType ++ ">(`" ++ queryAddress plan ++ "`, \x7b signal \x7d)\n"

theorem querySourceText_eq (plan : Plan) : ∃ args fnArgs, querySourceText plan =
    plan.hook ++ ": (" ++ args ++ ") =>\n"
      ++ "  useQuery<" ++ plan.responseType ++ ">(\x7b\n"
      ++ "    ...(options ?? \x7b\x7d),\n"
      ++ queryKeyLine plan
      ++ ("    queryFn: (" ++ fnArgs ++ ") =>\n"
      ++ "      caller\n")
      ++ addressLine plan
      ++ ("        .then(" ++ thenClause plan ++ "),\n"
      ++ "  \x7d),") := by
  unfold querySourceText queryKeyLine addressLine queryAddress
  rw [queryKey_text]
  rcases hparams : plan.paramsType with _ | params
  · refine ⟨"options?: Partial<UseQueryOptions<" ++ plan.responseType ++ ">>",
      "\x7b signal \x7d", ?_⟩
    simp only [String.append_assoc]
  · refine ⟨"params: " ++ params ++ ", " ++ ("options?: Partial<UseQueryOptions<"
      ++ plan.responseType ++ ">>"), "\x7b signal, queryKey \x7d", ?_⟩
    simp only [String.append_assoc]

/-- The hook of a query says the query's key and its address. -/
theorem source_eq_of_isQuery {plan : Plan} (h : plan.endpoint.method.isQuery = true) :
    ∃ before between after,
      source plan = before ++ queryKeyLine plan ++ between ++ addressLine plan ++ after := by
  obtain ⟨args, fnArgs, htext⟩ := querySourceText_eq plan
  obtain ⟨before, between, after, hbody⟩ : ∃ before between after,
      querySourceText plan = before ++ queryKeyLine plan ++ between ++ addressLine plan ++ after :=
    ⟨_, _, _, htext⟩
  rw [source, if_pos h, hbody]
  cases plan.endpoint.summary with
  | none => exact ⟨before, between, after, rfl⟩
  | some summary =>
    refine ⟨"/** " ++ Script.escapeComment summary ++ " */\n" ++ before, between, after, ?_⟩
    simp only [String.append_assoc]

/-- The hook of a query says the query's key. -/
theorem source_of_isQuery {plan : Plan} (h : plan.endpoint.method.isQuery = true) :
    ∃ before after, source plan = before ++ queryKeyLine plan ++ after := by
  obtain ⟨before, between, after, htext⟩ := source_eq_of_isQuery h
  refine ⟨before, between ++ addressLine plan ++ after, ?_⟩
  rw [htext]
  simp only [String.append_assoc]

theorem hook_inj {first second : String} :
    Name.hook first = Name.hook second ↔ Name.pascal first = Name.pascal second :=
  String.append_right_inj _

theorem queryKey_head?_inj {first second : Endpoint} :
    (queryKey (Plan.outline first)).head? = (queryKey (Plan.outline second)).head?
      ↔ Name.hook first.name.name = Name.hook second.name.name := by
  rw [queryKey, queryKey, List.head?_cons, List.head?_cons, Option.some_inj, Script.quote_inj,
    hook_outline, hook_outline]

/-- The hooks in the object are those of some of the endpoints, each once, and the hook of a query
says the query's key. The keys of two queries begin alike exactly if the names of the operations,
without their version markers, are alike in Pascal case; those of one tag and version never do. -/
theorem moduleFragments_queryKey_head? {options : ApiOptions} {entities : List String}
    {fragments warnings : List String}
    (made : moduleFragments options entities endpoints = .ok (fragments, warnings)) :
    fragments.getLast? = some (objectText (exported endpoints)) ∧
      (exported endpoints).flatMap TagBuckets.hooks = (shown endpoints).map member ∧
      (shown endpoints).Subperm endpoints ∧
      (∀ endpoint : Endpoint, endpoint.method.isQuery = true → ∃ before after,
        source (Plan.outline endpoint) = before ++ queryKeyLine (Plan.outline endpoint) ++ after) ∧
      (∀ first second : Endpoint,
        (queryKey (Plan.outline first)).head? = (queryKey (Plan.outline second)).head?
          ↔ Name.pascal first.name.name = Name.pascal second.name.name) ∧
      (shown endpoints).Pairwise fun first second =>
        first.tag = second.tag → first.name.version = second.name.version →
          (queryKey (Plan.outline first)).head? ≠ (queryKey (Plan.outline second)).head? := by
  obtain ⟨-, hresult⟩ := moduleFragments_eq_ok_iff.mp made
  obtain ⟨rfl, rfl⟩ := Prod.mk.inj hresult
  refine ⟨getLast?_moduleOf options entities endpoints, hooks_exported endpoints,
    shown_subperm endpoints, fun _ h => source_of_isQuery h, ?_, ?_⟩
  · intro first second
    rw [queryKey_head?_inj, hook_inj]
  · refine (pairwise_shown endpoints).imp fun hne htag hversion => ?_
    rw [Ne, queryKey_head?_inj]
    exact hne htag hversion

/-- Two queries of one tag and version. -/
def kennel : List Endpoint :=
  [fetch "getPet_v1" "pets", fetch "getOwner_v1" "pets"]

theorem moduleFragments_queryKey_head?_kennel :
    moduleFragments {} ["Pet"] kennel = .ok (moduleOf {} ["Pet"] kennel) ∧
      shown kennel = kennel ∧
      queryKey (Plan.outline (fetch "getPet_v1" "pets")) = ["\"useGetPet\""] ∧
      (queryKey (Plan.outline (fetch "getPet_v1" "pets"))).head?
        ≠ (queryKey (Plan.outline (fetch "getOwner_v1" "pets"))).head? := by
  have hclaimable : Plan.Claimable ["Pet"] (kennel.flatMap Endpoint.declaredNames) := by
    decide
  have made : moduleFragments {} ["Pet"] kennel = .ok (moduleOf {} ["Pet"] kennel) :=
    moduleFragments_eq_ok_iff.mpr ⟨hclaimable, rfl⟩
  have hshown : shown kennel = kennel := rfl
  obtain ⟨-, -, -, -, -, hpairs⟩ := moduleFragments_queryKey_head? made
  rw [hshown, kennel, List.pairwise_pair] at hpairs
  exact ⟨made, hshown, by decide, hpairs rfl rfl⟩

/-- Two versions of a query. -/
def revisions : List Endpoint :=
  [fetch "getPet_v1" "pets", fetch "getPet_v2" "pets"]

/-- The hooks of both versions stand in the object, and their keys begin alike. -/
theorem moduleFragments_revisions : ∃ fragments,
    moduleFragments {} ["Pet"] revisions = .ok (fragments, []) ∧
      fragments.getLast? = some (objectText (exported revisions)) ∧
      (exported revisions).flatMap TagBuckets.hooks = revisions.map member ∧
      (∀ endpoint ∈ revisions, endpoint.method.isQuery = true) ∧
      revisions.map Endpoint.path = ["/getPet_v1", "/getPet_v2"] ∧
      revisions.map (fun e => (queryKey (Plan.outline e)).head?)
        = [some "\"useGetPet\"", some "\"useGetPet\""] := by
  have hclaimable : Plan.Claimable ["Pet"] (revisions.flatMap Endpoint.declaredNames) := by
    decide
  have hwarnings : (exported revisions).flatMap TagBuckets.warnings = [] := rfl
  have made : moduleFragments {} ["Pet"] revisions = .ok ((moduleOf {} ["Pet"] revisions).1, []) :=
    moduleFragments_eq_ok_iff.mpr ⟨hclaimable, Prod.ext rfl hwarnings.symm⟩
  have hshown : shown revisions = revisions := rfl
  refine ⟨_, made, getLast?_moduleOf {} ["Pet"] revisions, ?_, ?_, by decide, by decide⟩
  · rw [hooks_exported, hshown]
  · rw [revisions, List.forall_mem_cons, List.forall_mem_singleton]
    exact ⟨rfl, rfl⟩

end TypedClients.Hook
