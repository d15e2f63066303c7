import TypedClients.Formatter

/-!
# Configuration

What can be set: where the inputs are and where the output goes, which modules are generated, how
they are formatted, and how each of them is named and what it imports. Everything has a default.

The three generators and their order are fixed (`Generator.all`). What can be set for each is a
structure of its own with the defaults of its fields, so a configuration that says nothing is `{}`.
The text of a new configuration file (`Config.defaultText`) says the same defaults once more.

Relative folders that a configuration file gives begin where the file is (`Config.relativeTo`).
Those that are given on the command line, and the defaults where there is no file, begin where the
command runs.
-/

namespace TypedClients

/-- A generator: the entity module, the HTTP hooks or the socket clients. -/
inductive Generator where
  | entities
  | api
  | sockets
  deriving DecidableEq, Repr

namespace Generator

/-- The generators in the order in which they run: the entity module before those that import
it. -/
def all : List Generator := [.entities, .api, .sockets]

/-- The name of a generator. -/
def word : Generator → String
  | .entities => "entities"
  | .api => "api"
  | .sockets => "sockets"

/-- The generator of a name. -/
def ofWord? (text : String) : Option Generator :=
  all.find? fun g => g.word == text

/-- Every generator is found under its name. -/
@[simp] theorem ofWord?_word (g : Generator) : ofWord? g.word = some g := by
  cases g <;> rfl

/-- What is said about a name that no generator has. -/
def unknownMessage (text : String) : String :=
  "unknown generator `" ++ text ++ "` (expected entities, api or sockets)"

end Generator

/-- How the entity module is generated. -/
structure EntityOptions where
  output : String := "schemas.ts"
  deriving DecidableEq, Repr

/-- How the HTTP hooks are generated. -/
structure ApiOptions where
  output : String := "api.ts"
  /-- The module that the validators are imported from. -/
  schemasImport : String := "@/api/schemas"
  /-- The expression that the address of the server is read from. -/
  baseUrl : String := "env.VITE_BACKEND"
  /-- The import that this expression needs; blank if it needs none. -/
  baseUrlImport : String := "import \x7b env \x7d from \"@/env\";"
  deriving DecidableEq, Repr

/-- How the socket clients are generated. -/
structure SocketOptions where
  /-- What the names of the files begin with, before the name of the namespace. -/
  outputLead : String := "sockets"
  schemasImport : String := "./schemas"
  deriving DecidableEq, Repr

/-- A configuration. -/
structure Config where
  /-- The folder of the inputs. -/
  schemaDir : String := "../backend/schemas"
  /-- The folder of the output. -/
  outDir : String := "src/api"
  generators : List Generator := Generator.all
  formatter : Formatter := .prettier
  entities : EntityOptions := {}
  api : ApiOptions := {}
  sockets : SocketOptions := {}
  deriving DecidableEq, Repr

namespace Config

/-- The configuration with its relative folders taken to begin at `base`. -/
def relativeTo (base : String) (config : Config) : Config :=
  { config with
    schemaDir := Path.join base config.schemaDir
    outDir := Path.join base config.outDir }

/-- The name of the configuration file. -/
def fileName : String := "schemagen.yaml"

/-- The text of a new configuration file, which sets everything to its default. -/
def defaultText : String :=
  String.join <| List.map (fun line => line ++ "\n")
    ["# schemagen configuration",
     "schema_dir: ../backend/schemas   # openapi.json, entities/, asyncapi/",
     "out_dir: src/api",
     "",
     "generators: [entities, api, sockets]",
     "",
     "formatter: prettier              # prettier | none",
     "# formatter:",
     "#   command: npx",
     "#   args: [prettier, --config, .prettierrc, --stdin-filepath, \"\x7bfile\x7d\"]",
     "",
     "entities:",
     "  output: schemas.ts",
     "",
     "api:",
     "  output: api.ts",
     "  schemas_import: \"@/api/schemas\"",
     "  base_url: env.VITE_BACKEND",
     "  base_url_import: 'import \x7b env \x7d from \"@/env\";'",
     "",
     "sockets:",
     "  output_prefix: sockets           # sockets-<namespace>.ts",
     "  schemas_import: ./schemas"]

end Config

end TypedClients
