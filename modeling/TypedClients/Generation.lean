import TypedClients.Config.Reader
import TypedClients.Entity.Module
import TypedClients.Hook.Module
import TypedClients.Output
import TypedClients.Socket.Client
import TypedClients.Source

/-!
# Generating modules

A generator reads the inputs, which may have changed since another one ran, and makes its files
ready for writing in the output folder.

## The generators

Each generator is a computation that reads from a source and gives files as fragments, with
warnings. It does not write, and it does not see what another generator has made; in particular each
of them reads the names of the entities for itself. The entity generator and that of the hooks make
one file each, that of the clients one for each AsyncAPI document.

Making files ready (`Generator.stage`) joins the fragments of each and formats them; only then is
there anything to be written. The error is the first one in this order: reading, what the generator
itself refuses, formatting.

## What is not here

Two files of one generator, or of two, may have the same path. Nothing looks for that, so the later
one takes the place of the earlier one when they are written.
-/

namespace TypedClients

/-- Why a generator failed. -/
inductive GenerationError where
  | source (error : SourceError)
  | duplicate (error : DuplicateDeclaration)
  | output (error : OutputError)
  deriving DecidableEq, Repr

namespace GenerationError

/-- The message of an error, with a wording for the faults of files. -/
def message (wording : FileFault → String) : GenerationError → String
  | .source error => error.message wording
  | .duplicate error => error.message
  | .output error => error.message wording

/-- What an error is caused by, the nearest cause first. -/
def causes (wording : FileFault → String) : GenerationError → List String
  | .source error => error.causes wording
  | .duplicate _ => []
  | .output error => error.causes wording

end GenerationError

/-- A file below the output folder, as the fragments that it is made of. -/
structure GeneratedFile where
  path : String
  fragments : List String

/-- What a generator gives: files, and warnings about them. -/
structure Generation where
  files : List GeneratedFile
  warnings : List String

namespace Generator

/-- The entity module. -/
def entityModule (source : Source) (options : EntityOptions) :
    Except GenerationError Generation := do
  let entities ← source.loadEntities.mapError .source
  (Entity.checkNames [] entities).mapError .duplicate
  .ok ⟨[⟨options.output, Entity.fragments entities⟩], []⟩

/-- The module of the HTTP hooks. -/
def hookModule (source : Source) (options : ApiOptions) : Except GenerationError Generation := do
  let entities := source.entityNames
  let endpoints ← (source.loadEndpoints entities).mapError .source
  let (fragments, warnings) ←
    (Hook.moduleFragments options entities endpoints).mapError .duplicate
  .ok ⟨[⟨options.output, fragments⟩], warnings⟩

/-- The socket clients, one for each namespace. -/
def clientModules (source : Source) (options : SocketOptions) :
    Except GenerationError Generation := do
  let spaces ← (source.loadSpaces source.entityNames).mapError .source
  let files ← spaces.mapM fun space => do
    let text ← (Socket.clientModule space options.schemasImport).mapError .duplicate
    .ok (⟨options.outputLead ++ "-" ++ space.name ++ ".ts", [text]⟩ : GeneratedFile)
  .ok ⟨files, []⟩

/-- Runs a generator. -/
def generate (source : Source) (config : Config) : Generator → Except GenerationError Generation
  | .entities => entityModule source config.entities
  | .api => hookModule source config.api
  | .sockets => clientModules source config.sockets

/-- Runs a generator and makes its files ready for writing. -/
def stage (source : Source) (config : Config) (format : Formatting) (generator : Generator) :
    Except GenerationError (List StagedFile × List String) := do
  let generation ← generator.generate source config
  let files ← generation.files.mapM fun file =>
    (StagedFile.ofFragments format [] (Path.join config.outDir file.path)
      file.fragments).mapError .output
  .ok (files, generation.warnings)

end Generator

end TypedClients
