import TypedClients.Name.Identifier

/-!
# Derived names

The names of the generated declarations, each made from a text of the input documents: entities
from file stems, hooks and buckets from operation names, tags and versions, operation names from
paths, events from channel addresses.

Every name in the generated modules is made by one of these functions. `entity` and `clientClass`
give names that can be declared, whatever they are made from, since they go through `binding` and
`sanitize`. The keys of tags and versions are keys of an object, and are quoted where they have to
be. Different texts may give one name; where that must not be, it is looked for where the names are
declared.
-/

namespace TypedClients.Name

/-- The name of an entity, from its file stem or from a reference or title that points at it. -/
def entity (raw : String) : String :=
  binding (pascal raw)

/-- Whether a bucket's key keeps the character as it is. -/
def keepsInKey (c : Char) : Bool :=
  c.isAlphanum || c == '_' || c == '-'

/-- Replaces each run of other characters by one underscore. The flag says that the run before
has been replaced already. -/
def underscoreRuns : Bool → List Char → List Char
  | _, [] => []
  | inRun, c :: r =>
    if keepsInKey c then c :: underscoreRuns false r
    else if inRun then underscoreRuns true r
    else '_' :: underscoreRuns true r

/-- The key of a tag's bucket. -/
def tagKey (tag : String) : String :=
  Text.lift (fun s => camelChars (underscoreRuns false s)) tag

/-- The key of a version's bucket inside a tag's. -/
def versionKey (version : String) : String :=
  "v" ++ camel version

/-- The name of the hook for an operation. -/
def hook (name : String) : String :=
  "use" ++ pascal name

/-- One segment of a path as part of a name: a brace becomes `By`. -/
def segmentWord (segment : List Char) : List Char :=
  segment.flatMap fun c => if c == '\x7b' || c == '\x7d' then ['B', 'y'] else [c]

/-- The name of an operation that has no id: its method, and the segments of its path after the
first in Pascal case, without blanks. -/
def ofRoute (method path : String) : String :=
  let segments := (Text.split '/' path.toList).filter fun s => !s.isEmpty
  let words := [' '].intercalate ((segments.drop 1).map segmentWord)
  method ++ String.ofList ((pascalChars words).filter fun c => !Text.isBlank c)

/-- The event of a channel: its address after the first slash, with every other slash an
underscore. -/
def event (address : String) : String :=
  let tail := match Text.splitOnce '/' address.toList with
    | some (_, after) => after
    | none => address.toList
  String.ofList (tail.map fun c => if c = '/' then '_' else c)

/-- The class of the client for a socket namespace. -/
def clientClass (namespaceName : String) : String :=
  "SocketClient" ++ sanitize (pascal namespaceName)

end TypedClients.Name
