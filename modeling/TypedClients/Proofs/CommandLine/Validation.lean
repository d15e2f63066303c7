import TypedClients.Proofs.CommandLine.Staging
import TypedClients.Proofs.Generation.Paths

/-!
# Validating and generating

To validate is to read the inputs of all generators, and every generator reads its own inputs again.
So a generator fails as validating does if it cannot read them, and if it can, then the one thing
that it may still refuse is a name that is declared twice (`follows_stage`).

## What is proved

`runValidate_agrees` — if validating succeeds, generating with all generators and without a
formatter makes all files ready or refuses a name that is declared twice, and nothing else; and if
all of them make their files ready, validating succeeds. This is said for every workspace in which
the configuration can be read, as both begin by reading it.

The proof never looks into a document. It goes by what a generator does with its inputs after it has
read them (`Follows`), which is kept by sequencing.

## What is not here

Formatters can fail on any text, and writing on any workspace, so nothing of the kind holds of whole
runs. That is why the statement ends where the files are ready.
-/

namespace TypedClients

namespace Generator

variable {α β : Type}

/-! ### What a generator may refuse -/

/-- The only failure, if any, is a name that is declared twice. -/
def RefusesClashes (outcome : Except GenerationError β) : Prop :=
  ∀ error, outcome = .error error → ∃ clash, error = .duplicate clash

theorem refusesClashes_ok (b : β) : RefusesClashes (.ok b) := by
  rintro _ ⟨⟩

theorem refusesClashes_mapError (declared : Except DuplicateDeclaration β) :
    RefusesClashes (declared.mapError .duplicate) := by
  cases declared with
  | ok b => exact refusesClashes_ok b
  | error clash =>
    rintro _ ⟨⟩
    exact ⟨clash, rfl⟩

theorem RefusesClashes.bind {outcome : Except GenerationError α}
    {next : α → Except GenerationError β} (h : RefusesClashes outcome)
    (hnext : ∀ a, RefusesClashes (next a)) : RefusesClashes (outcome >>= next) := by
  cases outcome with
  | ok a => exact hnext a
  | error error =>
    rintro _ ⟨⟩
    exact h error rfl

theorem refusesClashes_mapM {items : List α} {f : α → Except GenerationError β}
    (h : ∀ item ∈ items, RefusesClashes (f item)) : RefusesClashes (items.mapM f) := by
  intro error herror
  obtain ⟨item, hitem, hf⟩ := exists_of_mapM_eq_error herror
  exact h item hitem error hf

/-- How what is made of inputs depends on reading them: if they cannot be read, that is the failure;
if they can, only a clash of names is in the way. -/
inductive Follows : Except SourceError Unit → Except GenerationError β → Prop where
  | unread (error : SourceError) : Follows (.error error) (.error (.source error))
  | refused (clash : DuplicateDeclaration) : Follows (.ok ()) (.error (.duplicate clash))
  | made (b : β) : Follows (.ok ()) (.ok b)

theorem Follows.of_refusesClashes {outcome : Except GenerationError β}
    (h : RefusesClashes outcome) : Follows (.ok ()) outcome := by
  cases outcome with
  | ok b => exact .made b
  | error error =>
    obtain ⟨clash, rfl⟩ := h error rfl
    exact .refused clash

theorem Follows.refusesClashes {outcome : Except GenerationError β}
    (h : Follows (.ok ()) outcome) : RefusesClashes outcome := by
  cases h with
  | refused clash => exact refusesClashes_mapError (.error clash)
  | made b => exact refusesClashes_ok b

theorem Follows.loaded {loaded : Except SourceError Unit} {b : β}
    (h : Follows loaded (.ok b : Except GenerationError β)) : loaded = .ok () := by
  cases h
  rfl

theorem follows_mapError (loaded : Except SourceError α) :
    Follows (loaded.map fun _ => ()) (loaded.mapError .source) := by
  cases loaded with
  | error error => exact .unread error
  | ok a => exact .made a

theorem Follows.bind {loaded : Except SourceError Unit} {outcome : Except GenerationError α}
    {next : α → Except GenerationError β} (h : Follows loaded outcome)
    (hnext : ∀ a, RefusesClashes (next a)) : Follows loaded (outcome >>= next) := by
  cases h with
  | unread error => exact .unread error
  | refused clash => exact .refused clash
  | made a => exact .of_refusesClashes (hnext a)

/-! ### The generators -/

/-- Reads what a generator reads. -/
def load (source : Source) : Generator → Except SourceError Unit
  | .entities => source.loadEntities.map fun _ => ()
  | .api => (source.loadEndpoints source.entityNames).map fun _ => ()
  | .sockets => (source.loadSpaces source.entityNames).map fun _ => ()

theorem follows_generate (source : Source) (config : Config) (generator : Generator) :
    Follows (generator.load source) (generator.generate source config) := by
  cases generator with
  | entities =>
    exact (follows_mapError _).bind fun _ =>
      (refusesClashes_mapError _).bind fun _ => refusesClashes_ok _
  | api =>
    exact (follows_mapError _).bind fun _ =>
      (refusesClashes_mapError _).bind fun _ => refusesClashes_ok _
  | sockets =>
    refine (follows_mapError _).bind fun spaces =>
      RefusesClashes.bind ?_ fun _ => refusesClashes_ok _
    exact refusesClashes_mapM fun space _ =>
      (refusesClashes_mapError _).bind fun _ => refusesClashes_ok _

/-- Without a formatter, making the files ready adds nothing that can fail. -/
theorem follows_stage (programs : Programs) (source : Source) (config : Config)
    (generator : Generator) : Follows (generator.load source)
      (generator.stage source config (Formatter.none.format programs)) :=
  (follows_generate source config generator).bind fun _ =>
    (refusesClashes_mapM fun _ _ => refusesClashes_ok _).bind fun _ => refusesClashes_ok _

/-- Makes the files of all generators ready, in their order. -/
def stageAll (source : Source) (config : Config) (format : Formatting) :
    Except GenerationError (List (List StagedFile × List String)) :=
  all.mapM fun generator => generator.stage source config format

theorem mem_all (generator : Generator) : generator ∈ all := by
  cases generator <;> decide

theorem refusesClashes_stageAll {programs : Programs} {source : Source} {config : Config}
    (h : ∀ generator : Generator, generator.load source = .ok ()) :
    RefusesClashes (stageAll source config (Formatter.none.format programs)) :=
  refusesClashes_mapM fun generator _ =>
    (h generator ▸ follows_stage programs source config generator).refusesClashes

theorem loaded_of_stageAll {programs : Programs} {source : Source} {config : Config}
    {files : List (List StagedFile × List String)}
    (h : stageAll source config (Formatter.none.format programs) = .ok files)
    (generator : Generator) : generator.load source = .ok () := by
  obtain ⟨staged, -, hstaged⟩ := exists_right (forall₂_of_mapM h) generator.mem_all
  exact (hstaged ▸ follows_stage programs source config generator).loaded

end Generator

/-! ### Validating -/

namespace Command

open Running

/-- What validating comes to. -/
def validation (inputs : InputOptions) (w : Workspace) : Except CommandFailure Unit := do
  let config ← settings inputs w
  Generator.all.forM fun generator =>
    (generator.load ⟨w, config.schemaDir⟩).mapError .ofSource

theorem load_all_eq (source : Source) :
    (Generator.all.forM fun generator => (generator.load source).mapError CommandFailure.ofSource)
      = (do
        let _ ← source.loadEntities.mapError .ofSource
        let _ ← (source.loadEndpoints source.entityNames).mapError .ofSource
        let _ ← (source.loadSpaces source.entityNames).mapError .ofSource
        .ok ()) := by
  show (do
    (source.loadEntities.map _).mapError _
    ((source.loadEndpoints _).map _).mapError _
    ((source.loadSpaces _).map _).mapError _
    Except.ok ()) = _
  cases source.loadEntities with
  | error error => rfl
  | ok entities =>
    cases source.loadEndpoints source.entityNames with
    | error error => rfl
    | ok endpoints =>
      cases source.loadSpaces source.entityNames with
      | error error => rfl
      | ok spaces => rfl

/-- Validating reads the inputs of the generators in their order, and changes nothing. -/
theorem gives_runValidate (inputs : InputOptions) (w : Workspace) :
    Gives w (runValidate inputs) (validation inputs w) := by
  refine gives_bind (gives_configOf w inputs) fun config => ?_
  rw [load_all_eq]
  show Gives w _ (Except.ok (⟨w, config.schemaDir⟩ : Source) >>= fun source => do
    let _ ← source.loadEntities.mapError .ofSource
    let _ ← (source.loadEndpoints source.entityNames).mapError .ofSource
    let _ ← (source.loadSpaces source.entityNames).mapError .ofSource
    .ok ())
  refine gives_bind (gives_sourceOf w config) fun source => ?_
  refine gives_bind (gives_orFail _ _) fun entities => ?_
  refine gives_bind (gives_orFail _ _) fun endpoints => ?_
  refine gives_bind (gives_orFail _ _) fun spaces => ?_
  exact gives_bind (gives_tell _) fun _ => gives_bind (gives_tell _) fun _ =>
    gives_bind (gives_tell _) fun _ => gives_bind (gives_forM (fun _ => gives_tell _) _) fun _ =>
      gives_tell _

theorem validation_eq_ok_iff {inputs : InputOptions} {w : Workspace} {config : Config}
    (hconfig : settings inputs w = .ok config) :
    validation inputs w = .ok () ↔
      ∀ generator : Generator, generator.load ⟨w, config.schemaDir⟩ = .ok () := by
  rw [validation, hconfig]
  show (Generator.all.forM fun generator =>
    (generator.load ⟨w, config.schemaDir⟩).mapError CommandFailure.ofSource) = .ok () ↔ _
  rw [forM_eq_ok_iff]
  exact ⟨fun h generator => mapError_eq_ok.mp (h generator generator.mem_all),
    fun h generator _ => mapError_eq_ok.mpr (h generator)⟩

/-- Where the configuration can be read: if validating succeeds, then all generators make their files
ready, unless a name is declared twice; and if they do, then validating succeeds. -/
theorem runValidate_agrees {inputs : InputOptions} {s : Session} {config : Config}
    (hconfig : settings inputs s.workspace = .ok config) (programs : Programs) (outDir : String) :
    let validated := (ending (runValidate inputs) s).1
    let staged := Generator.stageAll ⟨s.workspace, config.schemaDir⟩
      { config with outDir := outDir } (Formatter.none.format programs)
    (validated = .ok () →
      (∃ files, staged = .ok files) ∨ ∃ clash, staged = .error (.duplicate clash)) ∧
    ((∃ files, staged = .ok files) → validated = .ok ()) := by
  intro validated staged
  have hvalidated : validated = .ok () ↔
      ∀ generator : Generator, generator.load ⟨s.workspace, config.schemaDir⟩ = .ok () := by
    rw [← validation_eq_ok_iff hconfig]
    show (ending (runValidate inputs) s).1 = _ ↔ _
    rw [gives_runValidate inputs s.workspace s rfl]
  rw [hvalidated]
  constructor
  · intro hloaded
    cases hstaged : staged with
    | ok files => exact .inl ⟨files, rfl⟩
    | error error =>
      obtain ⟨clash, rfl⟩ := Generator.refusesClashes_stageAll hloaded error hstaged
      exact .inr ⟨clash, rfl⟩
  · rintro ⟨files, hstaged⟩
    exact Generator.loaded_of_stageAll hstaged

/-- A workspace with an entity and an operation. -/
def shop : Workspace :=
  ⟨.folder
    [("schemas", .folder
      [("entities", .folder [("pet.schema.json", .file (.text "\x7b\"type\":\"string\"\x7d"))]),
        ("openapi.json", .file (.text ("\x7b\"openapi\":\"3.1.0\",\"info\":\x7b\x7d,\"paths\":"
          ++ "\x7b\"/pets\":\x7b\"get\":\x7b\"operationId\":\"getPets\"\x7d\x7d\x7d\x7d")))])],
    []⟩

theorem load_shop (generator : Generator) : generator.load ⟨shop, "schemas"⟩ = .ok () := by
  have hentities : Source.entityInputs ⟨shop, "schemas"⟩
      = [⟨"schemas/entities", "pet.schema.json"⟩] :=
    Source.listFiles_of_sorted ["pet.schema.json"] (by decide +kernel)
      (List.pairwise_singleton _ _)
  have hdocuments : Source.asyncApiInputs ⟨shop, "schemas"⟩ = [] :=
    Source.listFiles_of_sorted [] (by decide +kernel) .nil
  cases generator with
  | entities =>
    rw [Generator.load, Source.loadEntities, Source.entityNames, Source.entityFiles, hentities]
    decide +kernel
  | api =>
    rw [Generator.load, Source.entityNames, Source.entityFiles, hentities]
    decide +kernel
  | sockets =>
    rw [Generator.load, Source.loadSpaces, hdocuments]
    rfl

theorem runValidate_agrees_shop :
    settings ⟨none, some "schemas"⟩ shop = .ok { schemaDir := "schemas" } ∧
      (ending (runValidate ⟨none, some "schemas"⟩) ⟨shop, "", ""⟩).1 = .ok () ∧
      ((∃ files, Generator.stageAll ⟨shop, "schemas"⟩ { schemaDir := "schemas", outDir := "out" }
          (Formatter.none.format fun _ => none) = .ok files) ∨
        ∃ clash, Generator.stageAll ⟨shop, "schemas"⟩ { schemaDir := "schemas", outDir := "out" }
          (Formatter.none.format fun _ => none) = .error (.duplicate clash)) := by
  have hconfig : settings ⟨none, some "schemas"⟩ shop = .ok { schemaDir := "schemas" } := by
    decide +kernel
  have hvalidated : (ending (runValidate ⟨none, some "schemas"⟩) ⟨shop, "", ""⟩).1 = .ok () := by
    rw [gives_runValidate _ shop ⟨shop, "", ""⟩ rfl]
    exact (validation_eq_ok_iff hconfig).mpr load_shop
  have hagrees := runValidate_agrees (s := ⟨shop, "", ""⟩) hconfig (fun _ => none) "out"
  exact ⟨hconfig, hvalidated, hagrees.1 hvalidated⟩

end Command

end TypedClients
