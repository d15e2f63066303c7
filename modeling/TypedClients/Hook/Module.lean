import TypedClients.Config.Basic
import TypedClients.Hook.Object
import TypedClients.Script.Marker

/-!
# The module of the HTTP hooks

The imports and the client that every hook uses, then the declarations that the hooks need, tag by
tag, and the object that holds the hooks.

## The order of the module

After the head come the declarations of all hooks, and after these the one object. Declarations
stand in the order in which the endpoints are planned, which is tag by tag; in the object the hooks
of a bucket stand in the order of the document. That is why the plans are put back into the order of
the positions (`byPosition`) before the object is made.

Names are claimed in the order of planning as well, and those of the imported entities are taken
from the beginning. The other names of the head are not: a declaration that has one of them is not
refused.
-/

namespace TypedClients.Hook

/-- A line, or nothing if it is empty. -/
def optionalLine (line : String) : String :=
  if line.isEmpty then "" else line ++ "\n"

/-- The import of the entities. -/
def entityImport (options : ApiOptions) (entities : List String) : String :=
  if entities.isEmpty then ""
  else "import \x7b " ++ ", ".intercalate entities ++ " \x7d from \"" ++ options.schemasImport
    ++ "\";"

/-- The head of the module. -/
def preamble (options : ApiOptions) (entities : List String) : String :=
  Script.generatedMarker ++ "\n"
    ++ "import \x7b z \x7d from \"zod\";\n"
    ++ "import \x7b useQuery, useMutation, type UseQueryOptions, type UseMutationOptions \x7d from "
    ++ "\"@tanstack/react-query\";\n"
    ++ "import axios, \x7b type AxiosInstance, type CreateAxiosDefaults \x7d from \"axios\";\n"
    ++ optionalLine (Text.trim options.baseUrlImport)
    ++ optionalLine (entityImport options entities)
    ++ "\nexport const createCaller = (baseURL: string, options: CreateAxiosDefaults = "
    ++ "\x7b\x7d): AxiosInstance =>\n"
    ++ "  axios.create(\x7b withCredentials: true, ...options, baseURL \x7d);\n\n"
    ++ "export let caller: AxiosInstance = createCaller(" ++ options.baseUrl ++ ");\n\n"
    ++ "/** Replace the client every hook uses, e.g. to add interceptors or point at a mock. */\n"
    ++ "export const configureCaller = (instance: AxiosInstance): void => \x7b\n"
    ++ "  caller = instance;\n"
    ++ "\x7d;\n"

/-- Puts what belongs to the positions `order` in the order of the positions. -/
def byPosition {α : Type} (order : List Nat) (items : List α) : List α :=
  ((order.zip items).mergeSort fun a b => a.1 ≤ b.1).map Prod.snd

/-- The fragments of the module, and the warnings about its hooks. The endpoints are planned tag by
tag, so that of two names that clash the one of the later tag is refused. -/
def moduleFragments (options : ApiOptions) (entities : List String) (endpoints : List Endpoint) :
    Except DuplicateDeclaration (List String × List String) := do
  let groups := Endpoint.group endpoints
  let order := Endpoint.discoveryOrder groups
  let planned ← ((Plan.ofEndpoints (order.filterMap fun i => endpoints[i]?)).run entities).1
  let buckets := allBuckets groups (byPosition order planned)
  let declarations := planned.flatMap fun plan => plan.declarations.map Declaration.text
  .ok (preamble options entities :: declarations ++ [objectText buckets],
    buckets.flatMap TagBuckets.warnings)

end TypedClients.Hook
