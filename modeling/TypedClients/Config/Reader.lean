import TypedClients.Config.Basic
import TypedClients.Yaml.Reader

/-!
# Reading configurations

A configuration is read from a YAML mapping. Keys that mean nothing here are ignored; one that does
may be given only once. A text may be any scalar, and a section or list for which nothing is
written is the default or empty.

## How it is read

The text is read as a YAML tree first, and the tree is then looked through section by section
(`Config.ofYaml?`). A text that is no YAML, one of another shape, an unknown name of a generator or
a formatter, and a key that is given twice are all one error: the configuration is malformed. What
the message says more than that is not modelled; a tag stands in its place
(`ConfigError.malformedTag`).

## What is not here

Only the part of the notation that `Yaml.read` knows is read. Anchors, tags and several documents in
one file are refused, not misread. That there is no file is no error of this module: `load` gives
nothing then, and whether that is an error is for the command to say.
-/

namespace TypedClients

/-- Why a configuration cannot be read. -/
inductive ConfigError where
  | file (path : String) (fault : FileFault)
  | malformed (path : String)
  deriving DecidableEq, Repr

namespace ConfigError

/-- How messages name a text that is no configuration. -/
def malformedTag : String := "<yaml>"

/-- The message of an error, with a wording for the faults of files. -/
def message (wording : FileFault → String) : ConfigError → String
  | .file path fault => "failed to read config " ++ path ++ ": " ++ wording fault
  | .malformed path => "failed to parse config " ++ path ++ ": " ++ malformedTag

/-- What an error is caused by. -/
def causes (wording : FileFault → String) : ConfigError → List String
  | .file _ fault => [wording fault]
  | .malformed _ => [malformedTag]

end ConfigError

namespace Config

/-- The entries of a section with the given keys, each of which may be there once. -/
def section? (keys : List String) : Yaml → Option (List (String × Yaml))
  | .mapping entries =>
    let known := entries.filter fun e => keys.contains e.1
    if (known.map Prod.fst).Nodup then some known else none
  | value => if value.isEmpty then some [] else none

/-- The value under a key, or the default. -/
def valueAt? {α : Type} (key : String) (start : α) (decode : Yaml → Option α)
    (entries : List (String × Yaml)) : Option α :=
  match Keyed.get? key entries with
  | none => some start
  | some value => decode value

/-- A list of generators. -/
def generators? : Yaml → Option (List Generator)
  | .sequence items => items.mapM fun item => item.scalar?.bind Generator.ofWord?
  | value => if value.isEmpty then some [] else none

/-- A list of texts. -/
def texts? : Yaml → Option (List String)
  | .sequence items => items.mapM Yaml.string?
  | _ => none

/-- The formatter of a name. -/
def preset? (name : String) : Option Formatter :=
  match name with
  | "none" => some .none
  | "prettier" => some .prettier
  | _ => none

/-- A command to format with. -/
def command? (entries : List (String × Yaml)) : Option Formatter := do
  let known ← section? ["command", "args"] (.mapping entries)
  let program ← (Keyed.get? "command" known).bind Yaml.string?
  let arguments ← valueAt? "args" [] texts? known
  some (.command program arguments)

/-- A formatter: a name, a name with nothing under it, or a command. -/
def formatter? : Yaml → Option Formatter
  | .mapping entries =>
    match entries with
    | [(name, value)] =>
      match preset? name with
      | some preset => if value.isNull then some preset else command? entries
      | none => command? entries
    | entries => command? entries
  | value => value.string?.bind preset?

/-- How the entity module is generated. -/
def entityOptions? (value : Yaml) : Option EntityOptions := do
  let start : EntityOptions := {}
  let entries ← section? ["output"] value
  let output ← valueAt? "output" start.output Yaml.scalar? entries
  some ⟨output⟩

/-- How the HTTP hooks are generated. -/
def apiOptions? (value : Yaml) : Option ApiOptions := do
  let start : ApiOptions := {}
  let entries ← section? ["output", "schemas_import", "base_url", "base_url_import"] value
  let output ← valueAt? "output" start.output Yaml.scalar? entries
  let schemasImport ← valueAt? "schemas_import" start.schemasImport Yaml.scalar? entries
  let baseUrl ← valueAt? "base_url" start.baseUrl Yaml.scalar? entries
  let baseUrlImport ← valueAt? "base_url_import" start.baseUrlImport Yaml.scalar? entries
  some ⟨output, schemasImport, baseUrl, baseUrlImport⟩

/-- How the socket clients are generated. -/
def socketOptions? (value : Yaml) : Option SocketOptions := do
  let start : SocketOptions := {}
  let entries ← section? ["output_prefix", "schemas_import"] value
  let lead ← valueAt? "output_prefix" start.outputLead Yaml.scalar? entries
  let schemasImport ← valueAt? "schemas_import" start.schemasImport Yaml.scalar? entries
  some ⟨lead, schemasImport⟩

/-- A configuration from a YAML value. -/
def ofYaml? (value : Yaml) : Option Config := do
  let start : Config := {}
  let entries ← section?
    ["schema_dir", "out_dir", "generators", "formatter", "entities", "api", "sockets"] value
  let schemaDir ← valueAt? "schema_dir" start.schemaDir Yaml.scalar? entries
  let outDir ← valueAt? "out_dir" start.outDir Yaml.scalar? entries
  let generators ← valueAt? "generators" start.generators generators? entries
  let formatter ← valueAt? "formatter" start.formatter formatter? entries
  let entities ← valueAt? "entities" start.entities entityOptions? entries
  let api ← valueAt? "api" start.api apiOptions? entries
  let sockets ← valueAt? "sockets" start.sockets socketOptions? entries
  some ⟨schemaDir, outDir, generators, formatter, entities, api, sockets⟩

/-- The configuration of a file, if it is there. Its relative folders begin where the file is. -/
def load (w : Workspace) (path : String) : Except ConfigError (Option Config) :=
  if w.exists_ path then do
    let text ← (w.readText path).mapError (.file path)
    match (Yaml.read text).bind ofYaml? with
    | some config => .ok (some (config.relativeTo (Path.folderOf path)))
    | none => .error (.malformed path)
  else .ok none

end Config

end TypedClients
