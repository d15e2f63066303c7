import TypedClients.Endpoint.Collection
import TypedClients.OpenApi.Reader
import TypedClients.Socket.Channel
import TypedClients.Workspace.Basic

/-!
# The schema folder

The inputs lie in one folder of a workspace: the OpenAPI document, the entity files and the AsyncAPI
documents. Each reading looks at the workspace anew.

The files of a folder are taken in the order of their names as they are read. So the order in which
the file system lists them does not matter, unless two names are read alike: these files keep the
order in which they are listed (`listFiles`). A file is opened under the name that it has; in what
is told about it, and in the names that are made of its name, the reading of the name is used
(`InputFile.path`).

## What is not here

* Folders that cannot be listed, files that cannot be opened, and entries that come and go while a
  folder is listed. A folder that is missing, and a file where it should be, have no files.
* Links: a link to a file would count as a file.
-/

namespace TypedClients

/-- What a parse error is caused by. -/
def ParseError.causes : ParseError → List String
  | .json fault => [fault.message]
  | .openApiVersion _ => []
  | .asyncApiVersion _ => []

/-- What an error of resolution is caused by. -/
def ResolveError.causes : ResolveError → List String
  | .invalidPart _ fault => [fault.message]
  | _ => []

/-- Why the inputs cannot be read. -/
inductive SourceError where
  | file (path : String) (fault : FileFault)
  | parse (path : String) (error : ParseError)
  | resolve (path : String) (error : ResolveError)
  deriving DecidableEq, Repr

/-- The message of an error, with a wording for the faults of files. -/
def SourceError.message (wording : FileFault → String) : SourceError → String
  | .file path fault => "failed to read " ++ path ++ ": " ++ wording fault
  | .parse path error => "failed to parse " ++ path ++ ": " ++ error.message
  | .resolve path error => "failed to resolve " ++ path ++ ": " ++ error.message

/-- What an error is caused by, the nearest cause first. -/
def SourceError.causes (wording : FileFault → String) : SourceError → List String
  | .file _ fault => [wording fault]
  | .parse _ error => error.message :: error.causes
  | .resolve _ error => error.message :: error.causes

/-- A file of an input folder: the path of the folder, and the name of the file in it. -/
structure InputFile where
  folder : String
  name : FileName

/-- The path of an input file, as it is told. -/
def InputFile.path (file : InputFile) : String :=
  Path.join file.folder file.name.reading

/-- The folder of the inputs in a workspace. -/
structure Source where
  workspace : Workspace
  root : String

namespace Source

/-- The OpenAPI document. -/
def openApiPath (source : Source) : String :=
  Path.join source.root "openapi.json"

/-- What the names of entity files end in. -/
def entityEnding : String := ".schema.json"

/-- The files of a folder whose names are kept, in the order of their names as they are read. Files
whose names are read alike keep the order in which the folder lists them. -/
def listFiles (source : Source) (folder : String) (keep : String → Bool) : List InputFile :=
  let names := (source.workspace.fileNames folder).filter fun name => keep name.reading
  (names.mergeSort fun a b => !(b.reading < a.reading)).map (InputFile.mk folder)

/-- The folder of the entity files. -/
def entityFolder (source : Source) : String :=
  Path.join source.root "entities"

/-- The folder of the AsyncAPI documents. -/
def asyncApiFolder (source : Source) : String :=
  Path.join source.root "asyncapi"

/-- The entity files; none if their folder is missing. -/
def entityInputs (source : Source) : List InputFile :=
  source.listFiles source.entityFolder fun name => (Text.before? entityEnding name).isSome

/-- The paths of the entity files. -/
def entityFiles (source : Source) : List String :=
  source.entityInputs.map InputFile.path

/-- The AsyncAPI documents; none if their folder is missing. -/
def asyncApiInputs (source : Source) : List InputFile :=
  source.listFiles source.asyncApiFolder fun name => (Text.before? ".json" name).isSome

/-- The paths of the AsyncAPI documents. -/
def asyncApiFiles (source : Source) : List String :=
  source.asyncApiInputs.map InputFile.path

/-- The stem of an entity file. -/
def entityStem (path : String) : String :=
  let name := Path.fileName path
  (Text.before? entityEnding name).getD name

/-- The namespace of an AsyncAPI document: its file name up to the first dot. -/
def namespaceOf (path : String) : String :=
  let name := Path.fileName path
  match Text.splitOnce '.' name.toList with
  | some (head, _) => String.ofList head
  | none => name

/-- The names of the entities, in the order of their files. -/
def entityNames (source : Source) : List String :=
  Keyed.distinct (source.entityFiles.map fun path => Name.entity (entityStem path))

/-- The text of an input file. -/
def read (source : Source) (file : InputFile) : Except SourceError String :=
  (source.workspace.readTextIn file.folder file.name).mapError (.file file.path)

/-- The entity of a file. -/
def loadEntity (source : Source) (names : List String) (file : InputFile) :
    Except SourceError Entity := do
  let text ← source.read file
  let path := file.path
  let schema ← (Schema.read text).mapError fun fault => .parse path (.json fault)
  let root := match schema with
    | .ref _ => Schema.empty
    | inline => inline
  let converter : Converter := ⟨names, .entity root⟩
  let shape ← (converter.node schema).mapError (.resolve path)
  let stem := entityStem path
  .ok ⟨stem, Name.entity stem, shape⟩

/-- The entities of all files. -/
def loadEntities (source : Source) : Except SourceError (List Entity) :=
  source.entityInputs.mapM (source.loadEntity source.entityNames)

/-- The endpoints of the OpenAPI document. -/
def loadEndpoints (source : Source) (names : List String) :
    Except SourceError (List Endpoint) := do
  let path := source.openApiPath
  let text ← (source.workspace.readText path).mapError (.file path)
  let document ← (OpenApi.Document.parse text).mapError (.parse path)
  (Endpoint.ofDocument names document).mapError (.resolve path)

/-- The channels of an AsyncAPI document. -/
def loadSpace (source : Source) (names : List String) (file : InputFile) :
    Except SourceError Socket.Space := do
  let text ← source.read file
  let path := file.path
  let document ← (AsyncApi.Document.parse text).mapError (.parse path)
  (Socket.Space.ofDocument (namespaceOf path) names document).mapError (.resolve path)

/-- The channels of all AsyncAPI documents. -/
def loadSpaces (source : Source) (names : List String) :
    Except SourceError (List Socket.Space) :=
  source.asyncApiInputs.mapM (source.loadSpace names)

end Source

end TypedClients
