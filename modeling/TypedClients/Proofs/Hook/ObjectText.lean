import TypedClients.Proofs.Hook.Object
import TypedClients.Proofs.Hook.QueryKey
import TypedClients.Proofs.Text.Lines

/-!
# The text of the exported object

The exported object as it is printed, said from the endpoints alone. `objectLines` has a block for
each tag, in the order in which the tags are met. In the block are first the hooks of the endpoints
without a version, and then a block for each version with the hooks of its endpoints. In either kind
of block the hooks stand in the order in which they come first, and each is the source of the last
plan that has it, line by line.

## What is proved

* `objectText_exported`: these lines, joined, are the text of the object. So nothing else is printed
  in it, and nothing is left out.
* `source_eq_append`: the source of a hook is its doc comment and then its key.

What a hook does is not said here; nor is which keys are quoted, which `Script.propertyKey` decides.
-/

namespace TypedClients.Hook

/-- The plans that count: for each hook the last one that has it, in the order in which the hooks
come first. -/
def winners (plans : List Plan) : List Plan :=
  (Keyed.distinct (plans.map Plan.hook)).filterMap fun hook =>
    plans.reverse.find? fun plan => plan.hook = hook

/-- A line behind spaces. An empty line stays empty. -/
def indentedLine (depth : Nat) (line : String) : String :=
  (if line.isEmpty then "" else Text.spaces depth ++ line) ++ "\n"

/-- The lines of the hooks of plans. -/
def hookLines (depth : Nat) (plans : List Plan) : List String :=
  (winners plans).flatMap fun plan => (Text.lines (source plan)).map (indentedLine depth)

/-- An object in another one: its key, what it holds, and its end. -/
def block (depth : Nat) (key : String) (inside : List String) : List String :=
  (Text.spaces depth ++ key ++ ": \x7b\n") :: inside ++ [Text.spaces depth ++ "\x7d,\n"]

/-- The hooks of the endpoints of a tag and version. -/
def bucketLines (endpoints : List Endpoint) (tag : String) (version : Option String) :
    List String :=
  hookLines (bucketIndent version) ((bucketEndpoints endpoints tag version).map Plan.outline)

/-- The block of a tag: the hooks without a version, and the blocks of the versions. -/
def tagLines (endpoints : List Endpoint) (tag : String) : List String :=
  block 2 (Script.propertyKey (Name.tagKey tag))
    (bucketLines endpoints tag none
      ++ (Endpoint.versionsOf endpoints tag).flatMap fun version =>
        block 4 (Script.propertyKey (Name.versionKey version))
          (bucketLines endpoints tag (some version)))

/-- The exported object, piece by piece. -/
def objectLines (endpoints : List Endpoint) : List String :=
  "export const api = \x7b\n"
    :: (Keyed.distinct (endpoints.map Endpoint.tag)).flatMap (tagLines endpoints)
    ++ ["\x7d;\n"]

theorem intercalate_empty (pieces : List String) : "".intercalate pieces = String.join pieces := by
  induction pieces with
  | nil => rfl
  | cons piece pieces ih =>
    rw [String.join_cons, ← ih]
    cases pieces with
    | nil => rw [String.intercalate_singleton, String.intercalate_nil, String.append_empty]
    | cons next rest => rw [String.intercalate_cons_cons, String.append_empty]

theorem join_flatMap {α : Type} (f : α → List String) (items : List α) :
    String.join (items.flatMap f) = String.join (items.map fun item => String.join (f item)) := by
  induction items with
  | nil => rfl
  | cons item items ih =>
    rw [List.flatMap_cons, String.join_append, List.map_cons, String.join_cons, ih]

theorem join_block (depth : Nat) (key : String) (inside : List String) :
    String.join (block depth key inside)
      = Text.spaces depth ++ key ++ ": \x7b\n" ++ String.join inside
        ++ (Text.spaces depth ++ "\x7d,\n") := by
  rw [block, String.join_append, String.join_cons, String.join_cons, String.join_nil,
    String.append_empty]

/-- The hooks of a bucket are those of the plans that count. -/
theorem hooks_eq_winners (name : String) (depth : Nat) (plans : List Plan) :
    (bucketOf name depth plans).hooks
      = (winners plans).map fun plan => (plan.hook, indent depth (source plan)) := by
  have hkeys : Keyed.keys (bucketOf name depth plans).hooks
      = Keyed.distinct (plans.map Plan.hook) := by
    rw [hooks_bucketOf, Keyed.keys_ofList, List.map_map]
    rfl
  have hnodup : (Keyed.keys (bucketOf name depth plans).hooks).Nodup := by
    rw [hkeys]
    exact Keyed.nodup_distinct _
  refine (Keyed.filterMap_get?_keys hnodup).symm.trans ?_
  rw [hkeys, hooks_bucketOf, winners, List.map_filterMap]
  refine List.filterMap_congr fun hook _ => ?_
  rw [Keyed.get?_ofList, ← List.map_reverse, List.find?_map, Option.map_map, Option.map_map,
    Function.comp_def]
  refine Option.map_congr fun plan hplan => ?_
  have hfound := List.find?_some hplan
  have hhook : plan.hook = hook := of_decide_eq_true hfound
  subst hhook
  rfl

/-! ### The source of a hook -/

/-- The doc comment of a summary. -/
def docComment : Option String → String
  | some summary => "/** " ++ Script.escapeComment summary ++ " */\n"
  | none => ""

/-- Behind its doc comment a hook is written under its key. -/
theorem source_eq_append (plan : Plan) :
    ∃ rest, source plan = docComment plan.endpoint.summary ++ (plan.hook ++ (": (" ++ rest)) := by
  have hbody : ∃ rest, (if plan.endpoint.method.isQuery then querySourceText plan
      else mutationText plan) = plan.hook ++ (": (" ++ rest) := by
    split
    · obtain ⟨args, fnArgs, htext⟩ := querySourceText_eq plan
      rw [htext]
      simp only [String.append_assoc]
      exact ⟨_, rfl⟩
    · have hopen : ": (options?: Partial<UseMutationOptions<"
          = ": (" ++ "options?: Partial<UseMutationOptions<" := by decide
      unfold mutationText
      simp only [hopen, String.append_assoc]
      exact ⟨_, rfl⟩
  obtain ⟨rest, hbody⟩ := hbody
  refine ⟨rest, ?_⟩
  rw [source, hbody]
  cases plan.endpoint.summary with
  | none => exact String.empty_append.symm
  | some summary => rfl

theorem join_map_append_feed (line : String) (lines : List String) :
    String.join ((line :: lines).map (· ++ "\n")) = "\n".intercalate (line :: lines) ++ "\n" := by
  induction lines generalizing line with
  | nil => simp [String.join_cons]
  | cons next lines ih =>
    rw [List.map_cons, String.join_cons, ih next, String.intercalate_cons_cons]
    simp only [String.append_assoc]

theorem join_indentedLines {depth : Nat} {text : String} (h : text ≠ "") :
    String.join ((Text.lines text).map (indentedLine depth)) = indent depth text ++ "\n" := by
  have hne : Text.lines text ≠ [] := by
    rw [← String.ofList_toList (s := text)]
    exact Text.lines_ne_nil fun hnil => h (String.toList_eq_nil_iff.mp hnil)
  obtain ⟨line, lines, hlines⟩ := List.exists_cons_of_ne_nil hne
  have hmap : (Text.lines text).map (indentedLine depth)
      = ((Text.lines text).map fun line =>
          if line.isEmpty then "" else Text.spaces depth ++ line).map (· ++ "\n") := by
    rw [List.map_map]
    rfl
  rw [hmap, indent, hlines]
  exact join_map_append_feed _ _

theorem source_ne_empty (plan : Plan) : source plan ≠ "" := by
  obtain ⟨rest, hsource⟩ := source_eq_append plan
  intro hempty
  have hlength := congrArg String.length (hempty.symm.trans hsource)
  have hopen : ": (".length = 3 := by decide
  simp only [String.length_append, String.length_empty, hopen] at hlength
  omega

theorem text_bucketOf (name : String) (depth : Nat) (plans : List Plan) :
    (bucketOf name depth plans).text = String.join (hookLines depth plans) := by
  rw [Bucket.text, intercalate_empty, hooks_eq_winners, hookLines, join_flatMap, List.map_map]
  refine congrArg String.join (List.map_congr_left fun plan _ => ?_)
  exact (join_indentedLines (source_ne_empty plan)).symm

theorem text_tagMember (endpoints : List Endpoint) (tag : String) :
    (tagMember endpoints tag).text = String.join (tagLines endpoints tag) := by
  have hversion : ∀ version, "    " ++ Script.propertyKey (Name.versionKey version) ++ ": \x7b\n"
        ++ (bucket endpoints tag (some version)).text ++ "    \x7d,\n"
      = String.join (block 4 (Script.propertyKey (Name.versionKey version))
          (bucketLines endpoints tag (some version))) := by
    intro version
    rw [join_block, bucket, text_bucketOf]
    rfl
  simp only [TagBuckets.text, tagMember, List.map_map, Function.comp_def, hversion,
    intercalate_empty]
  have hopen : Text.spaces 2 = "  " := by decide
  have hend : Text.spaces 2 ++ "\x7d,\n" = "  \x7d,\n" := by decide
  rw [tagLines, join_block, String.join_append, join_flatMap, bucket, text_bucketOf, hend, hopen,
    bucketLines]
  simp only [String.append_assoc]

/-- The text of the object. -/
theorem objectText_exported (endpoints : List Endpoint) :
    objectText (exported endpoints) = String.join (objectLines endpoints) := by
  have htags : (exported endpoints).map TagBuckets.text
      = (Keyed.distinct (endpoints.map Endpoint.tag)).map fun tag =>
        String.join (tagLines endpoints tag) := by
    simp only [exported_eq, List.map_map, Function.comp_def, text_tagMember]
  unfold objectText objectLines
  simp only [intercalate_empty, htags, String.join_append, String.join_cons, String.join_nil,
    String.append_empty, join_flatMap]

end TypedClients.Hook
