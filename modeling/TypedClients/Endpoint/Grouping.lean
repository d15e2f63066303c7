import TypedClients.Endpoint.Basic

/-!
# Grouping by tag and version

Endpoints are grouped by tag and, inside a tag, by version. Tags and versions stand in the order
in which they are first met, and the groups hold positions in the list of endpoints.

An endpoint is put into the groups by its position alone, which goes into the bucket of its tag and
version; groups and buckets are made when they are first needed. Planning goes through the positions
tag by tag (`discoveryOrder`). It sorts those of a tag, so that inside a tag the order of the
document is kept whatever the versions are.

The groups do not hold the endpoints themselves. Whoever reads them looks the positions up in the
list that was grouped.
-/

namespace TypedClients

/-- The positions of a tag's endpoints: those without a version, and those of each version. -/
structure Buckets where
  unversioned : List Nat
  versions : List (String × List Nat)
  deriving DecidableEq, Repr

/-- Puts a position into its bucket. -/
def Buckets.add (buckets : Buckets) (version : Option String) (position : Nat) : Buckets :=
  match version with
  | none => { buckets with unversioned := buckets.unversioned ++ [position] }
  | some v =>
    { buckets with versions := Keyed.update v [] (fun l => l ++ [position]) buckets.versions }

/-- All the positions of a tag. -/
def Buckets.positions (buckets : Buckets) : List Nat :=
  buckets.unversioned ++ buckets.versions.flatMap Prod.snd

namespace Endpoint

/-- The endpoints by tag and version. -/
def group (endpoints : List Endpoint) : List (String × Buckets) :=
  endpoints.zipIdx.foldl
    (fun groups (endpoint, position) =>
      Keyed.update endpoint.tag ⟨[], []⟩
        (fun buckets => buckets.add endpoint.name.version position) groups)
    []

/-- The positions tag by tag, ascending inside a tag. -/
def discoveryOrder (groups : List (String × Buckets)) : List Nat :=
  groups.flatMap fun (_, buckets) => buckets.positions.mergeSort (· ≤ ·)

end Endpoint

end TypedClients
