import TypedClients.CommandLine.Run
import TypedClients.Proofs.Outcome

/-!
# Staging before writing

Generating is two things one after the other. The files are made ready, for which the workspace is
only read (`stagedFiles`); then they are written, in their order. Nothing else that is done changes
the workspace, and nothing is written unless every file is ready (`ending_runGenerate`).

## How it is proved

A command is a computation that can fail and that changes a session. `Gives` says of a computation
that it comes to an outcome and leaves the workspace as it is, whatever has been told before; it is
kept by sequencing, so everything before the writing is done with at one stroke. `Gives.ending_bind`
then drops it from the front of what is to be described.

## What is not here

What has been printed and told is left out of `ending`. A message has no part in what is proved of
the files, and which lines a run tells can be read off its definition.
-/

namespace TypedClients

namespace Running

variable {ε α β : Type} {w : Workspace}

/-- What a computation comes to, and the workspace that it leaves. -/
def ending (action : Running α) (s : Session) : Except CommandFailure α × Workspace :=
  ((action.run.run s).1, (action.run.run s).2.workspace)

theorem ending_bind (action : Running α) (next : α → Running β) (s : Session) :
    ending (action >>= next) s
      = match action.run.run s with
        | (.ok a, middle) => ending (next a) middle
        | (.error failure, middle) => (.error failure, middle.workspace) := by
  rw [ending, run_bind]
  rcases action.run.run s with ⟨_ | a, middle⟩ <;> rfl

/-- In the workspace `w` the computation comes to the outcome, whatever has been told and printed,
and leaves the workspace as it is. -/
def Gives (w : Workspace) (action : Running α) (outcome : Except CommandFailure α) : Prop :=
  ∀ s, s.workspace = w → ending action s = (outcome, w)

theorem gives_pure (a : α) : Gives w (pure a) (.ok a) := by
  rintro s rfl
  rfl

theorem gives_throw (failure : CommandFailure) :
    Gives w (throw failure : Running α) (.error failure) := by
  rintro s rfl
  rfl

theorem gives_tell (line : String) : Gives w (tell line) (.ok ()) := by
  rintro s rfl
  rfl

theorem gives_orFail (failure : ε → CommandFailure) (result : Except ε α) :
    Gives w (orFail failure result) (result.mapError failure) := by
  cases result with
  | ok a => exact gives_pure a
  | error e => exact gives_throw (failure e)

/-- Where such a computation comes first, the rest runs in the same workspace. -/
theorem Gives.ending_bind {action : Running α} {outcome : Except CommandFailure α}
    (h : Gives w action outcome) (next : α → Running β) {s : Session} (hs : s.workspace = w) :
    ∃ middle, middle.workspace = w ∧ ending (action >>= next) s
      = match outcome with
        | .ok a => ending (next a) middle
        | .error failure => (.error failure, w) := by
  obtain ⟨rfl, hworkspace⟩ := Prod.mk.inj (h s hs)
  refine ⟨_, hworkspace, ?_⟩
  rw [Running.ending_bind]
  rcases hrun : action.run.run s with ⟨_ | a, middle⟩
  · rw [hrun] at hworkspace
    exact Prod.ext rfl hworkspace
  · rfl

theorem gives_bind {action : Running α} {outcome : Except CommandFailure α} {next : α → Running β}
    {outcomes : α → Except CommandFailure β} (h : Gives w action outcome)
    (hnext : ∀ a, Gives w (next a) (outcomes a)) :
    Gives w (action >>= next) (outcome >>= outcomes) := by
  intro s hs
  obtain ⟨middle, hmiddle, hending⟩ := h.ending_bind next hs
  rw [hending]
  cases outcome with
  | ok a => exact hnext a middle hmiddle
  | error failure => rfl

theorem gives_get_bind {next : Session → Running α} {outcome : Except CommandFailure α}
    (h : ∀ s, s.workspace = w → Gives w (next s) outcome) : Gives w (get >>= next) outcome := by
  intro s hs
  rw [ending_bind]
  exact h s hs s hs

theorem gives_mapM {f : β → Running α} {outcomes : β → Except CommandFailure α}
    (h : ∀ b, Gives w (f b) (outcomes b)) (items : List β) :
    Gives w (items.mapM f) (items.mapM outcomes) := by
  induction items with
  | nil => exact gives_pure []
  | cons item items ih =>
    rw [List.mapM_cons, List.mapM_cons]
    exact gives_bind (h item) fun a => gives_bind ih fun rest => gives_pure (a :: rest)

theorem gives_forM {f : β → Running Unit} (h : ∀ b, Gives w (f b) (.ok ())) (items : List β) :
    Gives w (items.forM f) (.ok ()) := by
  induction items with
  | nil => exact gives_pure ()
  | cons item items ih => exact gives_bind (h item) fun _ => ih

/-- What comes after writing, if it only tells something, does not change how it ends. -/
theorem ending_write_bind (failure : ε → CommandFailure) (action : Writing ε Unit)
    {next : Running Unit} (hnext : ∀ w, Gives w next (.ok ())) (s : Session) :
    ending (write failure action >>= fun _ => next) s
      = ((action.run.run s.workspace).1.mapError failure, (action.run.run s.workspace).2) := by
  have hwrite : (write failure action).run.run s
      = (orFail failure (action.run.run s.workspace).1).run.run
        { s with workspace := (action.run.run s.workspace).2 } := rfl
  rw [ending_bind, hwrite]
  cases (action.run.run s.workspace).1 with
  | ok _ => exact hnext _ _ rfl
  | error e => rfl

end Running

namespace Command

open Running

/-- The configuration of a command. -/
def settings (inputs : InputOptions) (w : Workspace) : Except CommandFailure Config := do
  let path := inputs.config.getD Config.fileName
  let found ← (Config.load w path).mapError .ofConfig
  let config ← match found with
    | some config => .ok config
    | none =>
      if inputs.config.isSome then .error ⟨"config file " ++ path ++ " does not exist", []⟩
      else .ok {}
  .ok { config with schemaDir := inputs.schemaDir.getD config.schemaDir }

/-- The files that a generator makes ready. -/
def generatorFiles (config : Config) (format : Formatting) (generator : Generator)
    (w : Workspace) : Except CommandFailure (List StagedFile) := do
  let (files, _) ←
    (generator.stage ⟨w, config.schemaDir⟩ config format).mapError (.ofGenerator generator)
  .ok files

/-- The files of all chosen generators, in the order in which they are written. -/
def chosenFiles (config : Config) (format : Formatting) (chosen : List Generator)
    (w : Workspace) : Except CommandFailure (List StagedFile) := do
  let staged ← (Generator.all.filter fun g => chosen.contains g).mapM fun g =>
    generatorFiles config format g w
  .ok staged.flatten

/-- The files that are made ready when modules are generated. -/
def stagedFiles (programs : Programs) (inputs : InputOptions) (outDir : Option String)
    (only : List Generator) (unformatted : Bool) (w : Workspace) :
    Except CommandFailure (List StagedFile) := do
  let config ← settings inputs w
  let format := (if unformatted then Formatter.none else config.formatter).format programs
  chosenFiles { config with outDir := outDir.getD config.outDir } format
    (if only.isEmpty then config.generators else only) w

theorem gives_configOf (w : Workspace) (inputs : InputOptions) :
    Gives w (configOf inputs) (settings inputs w) := by
  refine gives_get_bind fun s hs => ?_
  subst hs
  refine gives_bind (gives_orFail .ofConfig _) fun found => ?_
  cases found with
  | some config => exact gives_pure _
  | none =>
    dsimp only
    split
    · exact gives_throw _
    · exact gives_pure _

theorem gives_sourceOf (w : Workspace) (config : Config) :
    Gives w (sourceOf config) (.ok ⟨w, config.schemaDir⟩) := by
  refine gives_get_bind fun s hs => ?_
  subst hs
  exact gives_pure _

theorem gives_stageOne (w : Workspace) (config : Config) (format : Formatting)
    (generator : Generator) : Gives w (stageOne ⟨w, config.schemaDir⟩ config format generator)
      (generatorFiles config format generator w) :=
  gives_bind (gives_tell _) fun _ => gives_bind (gives_orFail _ _) fun _ => gives_pure _

theorem ending_stage_write (config : Config) (format : Formatting) (chosen : List Generator)
    (line : List StagedFile → String) (s : Session) :
    ending (do
      let source ← sourceOf config
      let staged ← (Generator.all.filter fun g => chosen.contains g).mapM
        (stageOne source config format)
      write .ofOutput (StagedFile.writeAll staged.flatten)
      staged.flatten.forM fun file => tell ("  wrote " ++ file.path)
      tell (line staged.flatten)) s
      = match chosenFiles config format chosen s.workspace with
        | .error failure => (.error failure, s.workspace)
        | .ok files => (((StagedFile.writeAll files).run.run s.workspace).1.mapError .ofOutput,
          ((StagedFile.writeAll files).run.run s.workspace).2) := by
  obtain ⟨s₁, hs₁, hsource⟩ := (gives_sourceOf s.workspace config).ending_bind _ rfl
  rw [hsource, ← hs₁]
  obtain ⟨s₂, hs₂, hstaged⟩ := (gives_mapM (gives_stageOne s₁.workspace config format)
    (Generator.all.filter fun g => chosen.contains g)).ending_bind _ rfl
  dsimp only
  rw [hstaged, ← hs₂, chosenFiles]
  cases (Generator.all.filter fun g => chosen.contains g).mapM fun g =>
    generatorFiles config format g s₂.workspace with
  | error failure => rfl
  | ok staged =>
    exact ending_write_bind _ _ (fun w => gives_bind (gives_forM (fun _ => gives_tell _) _)
      fun _ => gives_tell _) s₂

/-- The files are made ready, and then written in the workspace as it was. -/
theorem ending_runGenerate (programs : Programs) (inputs : InputOptions) (outDir : Option String)
    (only : List Generator) (unformatted : Bool) (s : Session) :
    ending (runGenerate programs inputs outDir only unformatted) s
      = match stagedFiles programs inputs outDir only unformatted s.workspace with
        | .error failure => (.error failure, s.workspace)
        | .ok files => (((StagedFile.writeAll files).run.run s.workspace).1.mapError .ofOutput,
          ((StagedFile.writeAll files).run.run s.workspace).2) := by
  obtain ⟨s₁, hs₁, hconfig⟩ := (gives_configOf s.workspace inputs).ending_bind _ rfl
  rw [runGenerate, hconfig, stagedFiles, ← hs₁]
  cases settings inputs s₁.workspace with
  | error failure => rfl
  | ok config =>
    dsimp only
    by_cases hchosen : (if only.isEmpty then config.generators else only).isEmpty = true
    · rw [if_pos hchosen]
      rw [List.isEmpty_iff] at hchosen
      show _ = match chosenFiles _ _ (if only.isEmpty then config.generators else only) _ with
        | .error failure => _
        | .ok files => _
      rw [hchosen]
      exact gives_tell _ s₁ rfl
    · rw [if_neg hchosen]
      exact ending_stage_write _ _ _ (fun files => "Generated " ++ toString files.length
        ++ " files in " ++ outDir.getD config.outDir) s₁

end Command

end TypedClients
