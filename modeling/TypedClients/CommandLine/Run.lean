import TypedClients.CommandLine.Arguments
import TypedClients.Generation
import TypedClients.Inspection
import TypedClients.Json.Printer
import TypedClients.Yaml.Printer

/-!
# Running commands

A command reads and changes the workspace, tells what it does on the terminal, and prints an
inspection. It fails with a message and the causes of it. Every generator has made its files ready
before the first one is written, so a generator that fails leaves the workspace as it was.

## How a command runs

`Running` is a computation with a `Session`, which holds what has been printed and told so far, and
the workspace. A failure takes nothing back of what was told or written before it; that makes it
possible to say what a command that fails leaves behind. `Workspace.command` runs a command from its
arguments and reports the exit status, the two texts and the workspace: the status is 2 for refused
arguments, 1 for a command that fails, and 0 for one that does not.

Generating makes the files of all chosen generators ready and then writes them, in the order of the
generators and not in that of the choice. Validating reads the inputs of all generators and makes
nothing. An inspection prints what the inputs of one generator have been read as. A new
configuration file is written only where there is none, unless it is forced.

## What is not here

Logging, and so the warnings of the generators, which are dropped (`Command.stageOne`); colours; and
what becomes of a run that is interrupted.
-/

namespace TypedClients

/-- Why a command failed: a message, and its causes, the nearest first. -/
structure CommandFailure where
  message : String
  causes : List String
  deriving DecidableEq, Repr

namespace CommandFailure

/-- A number that ends at the fifth column. -/
def numberText (n : Nat) : String :=
  let digits := toString n
  Text.spaces (5 - digits.length) ++ digits ++ ": "

/-- The causes, indented, and numbered if there are several. -/
def causeLines (causes : List String) : List String :=
  match causes with
  | [cause] => ["    " ++ Text.replace "\n" "\n    " cause]
  | causes => causes.zipIdx.map fun (cause, n) =>
    numberText n ++ Text.replace "\n" "\n       " cause

/-- What is said about a failure at the end. -/
def text (failure : CommandFailure) : String :=
  "Error: " ++ failure.message ++ "\n"
    ++ if failure.causes.isEmpty then ""
      else "\nCaused by:\n" ++ "\n".intercalate (causeLines failure.causes) ++ "\n"

/-- The failure of reading a configuration. -/
def ofConfig (error : ConfigError) : CommandFailure :=
  ⟨error.message FileFault.wording, error.causes FileFault.wording⟩

/-- The failure of reading the inputs. -/
def ofSource (error : SourceError) : CommandFailure :=
  ⟨error.message FileFault.wording, error.causes FileFault.wording⟩

/-- The failure of writing the output. -/
def ofOutput (error : OutputError) : CommandFailure :=
  ⟨error.message FileFault.wording, error.causes FileFault.wording⟩

/-- The failure of a generator. -/
def ofGenerator (generator : Generator) (error : GenerationError) : CommandFailure :=
  ⟨generator.word ++ " generation failed",
    error.message FileFault.wording :: error.causes FileFault.wording⟩

end CommandFailure

/-- What a command has printed and told, and the workspace. -/
structure Session where
  workspace : Workspace
  printed : String
  told : String

/-- A running command. -/
abbrev Running (α : Type) := ExceptT CommandFailure (StateM Session) α

namespace Running

/-- Tells a line on the terminal. -/
def tell (line : String) : Running Unit :=
  modify fun s => { s with told := s.told ++ line ++ "\n" }

/-- Prints a text. -/
def print (text : String) : Running Unit :=
  modify fun s => { s with printed := s.printed ++ text }

/-- Goes on with a result, or fails. -/
def orFail {ε α : Type} (failure : ε → CommandFailure) : Except ε α → Running α
  | .ok a => pure a
  | .error e => throw (failure e)

/-- Changes the workspace. -/
def write {ε : Type} (failure : ε → CommandFailure) (action : Writing ε Unit) : Running Unit := do
  let s ← get
  let (outcome, workspace) := action.run.run s.workspace
  set { s with workspace := workspace }
  orFail failure outcome

end Running

namespace Command

open Running

/-- The configuration of a command. A configuration file that is asked for has to be there. -/
def configOf (inputs : InputOptions) : Running Config := do
  let s ← get
  let path := inputs.config.getD Config.fileName
  let found ← orFail .ofConfig (Config.load s.workspace path)
  let config ← match found with
    | some config => pure config
    | none =>
      if inputs.config.isSome then throw ⟨"config file " ++ path ++ " does not exist", []⟩
      else pure {}
  pure { config with schemaDir := inputs.schemaDir.getD config.schemaDir }

/-- The inputs of a configuration. -/
def sourceOf (config : Config) : Running Source := do
  let s ← get
  pure ⟨s.workspace, config.schemaDir⟩

/-- Makes the files of a generator ready. -/
def stageOne (source : Source) (config : Config) (format : Formatting) (generator : Generator) :
    Running (List StagedFile) := do
  tell ("Generating " ++ generator.word ++ " → " ++ config.outDir)
  let (files, _) ← orFail (.ofGenerator generator) (generator.stage source config format)
  pure files

/-- Runs the chosen generators in their own order, and writes what they made. -/
def runGenerate (programs : Programs) (inputs : InputOptions) (outDir : Option String)
    (only : List Generator) (unformatted : Bool) : Running Unit := do
  let config ← configOf inputs
  let config := { config with outDir := outDir.getD config.outDir }
  let chosen := if only.isEmpty then config.generators else only
  if chosen.isEmpty then
    tell "No generators configured. Add a `generators` list to your config."
  else do
    let source ← sourceOf config
    let formatter := if unformatted then Formatter.none else config.formatter
    let staged ← (Generator.all.filter fun g => chosen.contains g).mapM
      (stageOne source config (formatter.format programs))
    let files := staged.flatten
    write .ofOutput (StagedFile.writeAll files)
    files.forM fun file => tell ("  wrote " ++ file.path)
    tell ("Generated " ++ toString files.length ++ " files in " ++ config.outDir)

/-- Reads all inputs and tells what there is. -/
def runValidate (inputs : InputOptions) : Running Unit := do
  let config ← configOf inputs
  let source ← sourceOf config
  let entities ← orFail .ofSource source.loadEntities
  let endpoints ← orFail .ofSource (source.loadEndpoints source.entityNames)
  let spaces ← orFail .ofSource (source.loadSpaces source.entityNames)
  tell ("Valid inputs in " ++ config.schemaDir)
  tell ("  Entities: " ++ toString entities.length)
  tell ("  Operations: " ++ toString endpoints.length)
  spaces.forM fun space =>
    tell ("  Namespace " ++ space.name ++ ": " ++ toString space.channels.length ++ " channels")
  tell "Validation successful."

/-- Prints what the inputs of a generator have been read as. -/
def runInspect (inputs : InputOptions) (target : Generator) (format : InspectionFormat) :
    Running Unit := do
  let config ← configOf inputs
  let source ← sourceOf config
  let summary ← orFail .ofSource (Inspection.ofGenerator source target)
  match format with
  | .yaml => print (Yaml.print summary)
  | .json => print (summary.print ++ "\n")

/-- Makes a configuration file. One that is there is replaced only by force. -/
def runInit (force : Bool) : Running Unit := do
  let s ← get
  if s.workspace.exists_ Config.fileName && !force then
    throw ⟨Config.fileName ++ " already exists. Use --force to overwrite.", []⟩
  else do
    write (fun fault => ⟨"failed to write " ++ Config.fileName, [FileFault.wording fault]⟩)
      (Workspace.overwrite Config.fileName Config.defaultText)
    tell ("Created " ++ Config.fileName)

/-- The configuration file of a command. -/
def configPath (command : Command) : String :=
  match command with
  | .generate inputs _ _ _ => inputs.config.getD Config.fileName
  | .validate inputs => inputs.config.getD Config.fileName
  | .inspect inputs _ _ => inputs.config.getD Config.fileName
  | .init _ => Config.fileName
  | .version => Config.fileName

/-- The folders that a command reads or writes, once its configuration file is in the workspace. -/
def folders (w : Workspace) (command : Command) : List String :=
  let configured (inputs : InputOptions) : Config :=
    match ((configOf inputs).run.run ⟨w, "", ""⟩).1 with
    | .ok config => config
    | .error _ => {}
  match command with
  | .generate inputs outDir _ _ =>
    let config := configured inputs
    [config.schemaDir, outDir.getD config.outDir]
  | .validate inputs => [(configured inputs).schemaDir]
  | .inspect inputs _ _ => [(configured inputs).schemaDir]
  | .init _ => []
  | .version => []

/-- Runs a command. -/
def run (programs : Programs) : Command → Running Unit
  | .generate inputs outDir only unformatted =>
    runGenerate programs inputs outDir only unformatted
  | .validate inputs => runValidate inputs
  | .inspect inputs target format => runInspect inputs target format
  | .init force => runInit force
  | .version => print "schemagen 0.3.0\n"

end Command

/-- How a run of the program ended. -/
structure CommandReport where
  code : Nat
  output : String
  messages : String
  deriving DecidableEq, Repr

/-- Runs the program with the given arguments, where other programs can be run by their names. -/
def Workspace.command (w : Workspace) (programs : Programs) (arguments : List String) :
    CommandReport × Workspace :=
  match Command.ofArguments? arguments with
  | none => (⟨2, "", "error: the arguments make no command\n"⟩, w)
  | some command =>
    let (outcome, s) := (command.run programs).run.run ⟨w, "", ""⟩
    match outcome with
    | .ok () => (⟨0, s.printed, s.told⟩, s.workspace)
    | .error failure => (⟨1, s.printed, s.told ++ failure.text⟩, s.workspace)

end TypedClients
