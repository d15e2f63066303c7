import TypedClients.Endpoint.Grouping
import TypedClients.Hook.Source

/-!
# The exported object

The hooks stand in one exported object: a bucket for each tag, and inside it one for each version.
A hook that is defined again in a bucket takes the place of the earlier one, and a warning says
so.

## The text

The text is made from the inside out. The source of a hook is indented when it is added to its
bucket (`Bucket.add`), a bucket's text is its hooks one after the other, and the text of a tag has
the hooks without a version first and then an object for each version. Keys that can be written bare
are, and others are quoted.

## What is not here

Two tags may have one key, and then the object has two members of that key; nothing is said about
it. Only hooks that meet in one bucket are warned about.
-/

namespace TypedClients.Hook

/-- The hooks of a bucket under their keys, and the warnings about them. -/
structure Bucket where
  hooks : List (String × String)
  warnings : List String

/-- The indentation of the hooks of a tag. -/
def tagIndent : Nat := 4

/-- The indentation of the hooks of a version. -/
def versionIndent : Nat := 6

/-- Indents every line that is not empty. -/
def indent (depth : Nat) (text : String) : String :=
  "\n".intercalate ((Text.lines text).map fun line =>
    if line.isEmpty then "" else Text.spaces depth ++ line)

/-- The warning that a plan's hook takes the place of an earlier one. -/
def warning (bucket : String) (plan : Plan) : String :=
  "hook `" ++ plan.hook ++ "` defined twice in `" ++ bucket ++ "`, "
    ++ plan.endpoint.method.word ++ " " ++ plan.endpoint.path ++ " wins"

/-- Adds a plan's hook to the bucket called `name`. -/
def Bucket.add (name : String) (depth : Nat) (bucket : Bucket) (plan : Plan) : Bucket :=
  { hooks := Keyed.insert plan.hook (indent depth (source plan)) bucket.hooks
    warnings :=
      if plan.hook ∈ Keyed.keys bucket.hooks then bucket.warnings ++ [warning name plan]
      else bucket.warnings }

/-- The bucket called `name` of the given plans. -/
def bucketOf (name : String) (depth : Nat) (plans : List Plan) : Bucket :=
  plans.foldl (Bucket.add name depth) ⟨[], []⟩

/-- The plans at the given positions. -/
def plansAt (plans : List Plan) (positions : List Nat) : List Plan :=
  positions.filterMap fun i => plans[i]?

/-- The lines of a bucket's hooks. -/
def Bucket.text (bucket : Bucket) : String :=
  "".intercalate (bucket.hooks.map fun (_, hook) => hook ++ "\n")

/-- The buckets of a tag: that of each version under its key, and that without a version. -/
structure TagBuckets where
  key : String
  plain : Bucket
  versions : List (String × Bucket)

/-- The buckets of a tag. -/
def tagBuckets (plans : List Plan) (tag : String) (buckets : Buckets) : TagBuckets :=
  { key := Script.propertyKey (Name.tagKey tag)
    plain := bucketOf tag tagIndent (plansAt plans buckets.unversioned)
    versions := buckets.versions.map fun (version, positions) =>
      let key := Name.versionKey version
      (Script.propertyKey key, bucketOf (tag ++ "/" ++ key) versionIndent
        (plansAt plans positions)) }

/-- The source of a tag's buckets. -/
def TagBuckets.text (t : TagBuckets) : String :=
  "  " ++ t.key ++ ": \x7b\n" ++ t.plain.text
    ++ "".intercalate (t.versions.map fun (key, bucket) =>
      "    " ++ key ++ ": \x7b\n" ++ bucket.text ++ "    \x7d,\n")
    ++ "  \x7d,\n"

/-- The warnings of a tag's buckets, those of its versions first. -/
def TagBuckets.warnings (t : TagBuckets) : List String :=
  t.versions.flatMap (fun (_, bucket) => bucket.warnings) ++ t.plain.warnings

/-- The buckets of all tags. -/
def allBuckets (groups : List (String × Buckets)) (plans : List Plan) : List TagBuckets :=
  groups.map fun (tag, buckets) => tagBuckets plans tag buckets

/-- The source of the exported object. -/
def objectText (buckets : List TagBuckets) : String :=
  "export const api = \x7b\n" ++ "".intercalate (buckets.map TagBuckets.text) ++ "\x7d;\n"

end TypedClients.Hook
