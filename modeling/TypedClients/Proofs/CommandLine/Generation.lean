import TypedClients.Proofs.CommandLine.Staging
import TypedClients.Proofs.Generation.Paths
import TypedClients.Proofs.Output

/-!
# What generating leaves behind

A run that succeeds has written every staged file, and a run that fails has written those before the
one that could not be. In both cases a place has the last file that was written for it, and every
other file is what it was. So nothing is lost that was not generated; but of two files that are
generated for one place the first is lost, and nothing is taken back when a later file fails.

## What is proved

* `runGenerate_succeeds` — of a run that reports no failure: every staged file is there with its
  text exactly if those that share a path do not differ; the last file for a path is there in any
  case; and no other file has changed.
* `runGenerate_fails` — of a run that fails: if it has not come to writing, the workspace is what it
  was. If it has, the files before the one at which it failed are written, the later ones are not,
  and nothing else has changed.
* `map_path_of_stagedFiles` — which paths are staged, from the configuration and the names of the
  documents alone.

## What is not here

A failure in the middle of a file. A file is written as a whole or not at all, and what is left of
one on a disk that fails half way is not modelled.
-/

namespace TypedClients.Command

open Running

variable {programs : Programs} {inputs : InputOptions} {outDir : Option String}
  {only : List Generator} {unformatted : Bool} {s : Session} {after : Workspace}

theorem map_path_of_chosenFiles {config : Config} {format : Formatting} {chosen : List Generator}
    {w : Workspace} {files : List StagedFile}
    (hchosen : chosenFiles config format chosen w = .ok files) :
    files.map StagedFile.path = ((Generator.all.filter fun g => chosen.contains g).flatMap fun g =>
      g.outputs ⟨w, config.schemaDir⟩ config).map (Path.join config.outDir) := by
  obtain ⟨staged, hstaged, h⟩ := bind_eq_ok.mp hchosen
  cases h
  have hfiles := forall₂_of_mapM hstaged
  clear hchosen hstaged
  generalize (Generator.all.filter fun g => chosen.contains g) = generators at hfiles ⊢
  induction hfiles with
  | nil => rfl
  | cons hfiles _ ih =>
    obtain ⟨⟨files, warnings⟩, hstage, hfiles⟩ := bind_eq_ok.mp hfiles
    cases hfiles
    rw [List.flatten_cons, List.map_append, ih, List.flatMap_cons, List.map_append,
      Generator.map_path_of_stage (mapError_eq_ok.mp hstage)]

/-- The paths of the staged files are known from the configuration and, for the socket clients,
from the names of the AsyncAPI documents. -/
theorem map_path_of_stagedFiles {w : Workspace} {files : List StagedFile}
    (h : stagedFiles programs inputs outDir only unformatted w = .ok files) :
    ∃ config, settings inputs w = .ok config ∧
      files.map StagedFile.path = ((Generator.all.filter fun g =>
        (if only.isEmpty then config.generators else only).contains g).flatMap fun g =>
          g.outputs ⟨w, config.schemaDir⟩ config).map (Path.join (outDir.getD config.outDir)) := by
  obtain ⟨config, hconfig, h⟩ := bind_eq_ok.mp h
  refine ⟨config, hconfig, (map_path_of_chosenFiles h).trans ?_⟩
  refine congrArg (List.map _) (congrArg (fun f => List.flatMap f _) (funext fun g => ?_))
  cases g <;> rfl

/-- The ways in which a run can end. -/
theorem runGenerate_cases {outcome : Except CommandFailure Unit}
    (h : ending (runGenerate programs inputs outDir only unformatted) s = (outcome, after)) :
    (∃ failure, outcome = .error failure ∧
        stagedFiles programs inputs outDir only unformatted s.workspace = .error failure ∧
        after = s.workspace) ∨
      (∃ files, outcome = .ok () ∧
        stagedFiles programs inputs outDir only unformatted s.workspace = .ok files ∧
        StagedFile.Written files s.workspace after) ∨
      ∃ written failed rest fault, outcome = .error (.ofOutput (.file failed.path fault)) ∧
        stagedFiles programs inputs outDir only unformatted s.workspace
          = .ok (written ++ failed :: rest) ∧
        StagedFile.Written written s.workspace after := by
  rw [ending_runGenerate] at h
  cases hstaged : stagedFiles programs inputs outDir only unformatted s.workspace with
  | error failure =>
    rw [hstaged] at h
    cases h
    exact .inl ⟨failure, rfl, rfl, rfl⟩
  | ok files =>
    rw [hstaged] at h
    dsimp only at h
    rcases StagedFile.run_writeAll files s.workspace with
      ⟨last, hrun, hwritten⟩ | ⟨written, failed, rest, fault, last, rfl, hrun, hwritten⟩
    · rw [hrun] at h
      cases h
      exact .inr (.inl ⟨files, rfl, rfl, hwritten⟩)
    · rw [hrun] at h
      cases h
      exact .inr (.inr ⟨written, failed, rest, fault, rfl, rfl, hwritten⟩)

/-! ### Runs that succeed -/

/-- After a run that succeeds every staged file is there, if and only if files that are staged for
one place do not differ. In any case the last of them is there, and no other file has changed. -/
theorem runGenerate_succeeds
    (h : ending (runGenerate programs inputs outDir only unformatted) s = (.ok (), after)) :
    ∃ config files, settings inputs s.workspace = .ok config ∧
      stagedFiles programs inputs outDir only unformatted s.workspace = .ok files ∧
      files.map StagedFile.path = ((Generator.all.filter fun g =>
        (if only.isEmpty then config.generators else only).contains g).flatMap fun g =>
          g.outputs ⟨s.workspace, config.schemaDir⟩ config).map
            (Path.join (outDir.getD config.outDir)) ∧
      ((∀ file ∈ files, after.readText file.path = .ok file.content) ↔
        ∀ file ∈ files, ∀ other ∈ files, after.locate file.path = after.locate other.path →
          file.content = other.content) ∧
      (∀ earlier file later, files = earlier ++ file :: later →
        (∀ other ∈ later, after.locate other.path ≠ after.locate file.path) →
        after.readText file.path = .ok file.content) ∧
      ∀ location content, location ∉ StagedFile.places after files →
        (after.tree.get? location = some (.file content) ↔
          s.workspace.tree.get? location = some (.file content)) := by
  rcases runGenerate_cases h with ⟨_, houtcome, -⟩ | ⟨files, -, hstaged, hwritten⟩ |
    ⟨_, _, _, _, houtcome, -⟩
  · cases houtcome
  · obtain ⟨config, hconfig, hpaths⟩ := map_path_of_stagedFiles hstaged
    exact ⟨config, files, hconfig, hstaged, hpaths, hwritten.forall_readText_iff, hwritten.last,
      hwritten.grows.file_iff⟩
  · cases houtcome

/-- Two documents whose names are the same up to the first dot, and a folder with an old entity
module in it and a folder where a client would be. -/
def chats : Workspace :=
  ⟨.folder
    [("schemas", .folder [("asyncapi", .folder
      [("chat.json", .file (.text (Source.plainDocument "A"))),
        ("chat.v2.json", .file (.text (Source.plainDocument "B")))])]),
      ("old", .folder [("schemas.ts", .file (.text "old")), ("sockets-chat.ts", .folder [])])],
    []⟩

/-- Generates the entity module and the clients. -/
def generateChats (outDir : String) : Running Unit :=
  runGenerate (fun _ => none) ⟨none, some "schemas"⟩ (some outDir) [.entities, .sockets] true

/-- The client of the document. -/
def chatClient (outDir title : String) : StagedFile :=
  ⟨Path.join outDir "sockets-chat.ts", Socket.clientText ⟨"chat", title, []⟩ "./schemas" []⟩

/-- What is staged. -/
def chatFiles (outDir : String) : List StagedFile :=
  [⟨Path.join outDir "schemas.ts", Entity.preamble⟩, chatClient outDir "A", chatClient outDir "B"]

theorem entityInputs_chats : Source.entityInputs ⟨chats, "schemas"⟩ = [] :=
  Source.listFiles_of_sorted [] (by decide +kernel) .nil

theorem loadSpaces_chats : Source.loadSpaces ⟨chats, "schemas"⟩ []
    = .ok [⟨"chat", "A", []⟩, ⟨"chat", "B", []⟩] := by
  have hinputs : Source.asyncApiInputs ⟨chats, "schemas"⟩
      = [⟨"schemas/asyncapi", "chat.json"⟩, ⟨"schemas/asyncapi", "chat.v2.json"⟩] :=
    Source.listFiles_of_sorted ["chat.json", "chat.v2.json"] (by decide +kernel)
      (by decide)
  have hread : chats.readTextIn "schemas/asyncapi" "chat.json"
      = .ok (Source.plainDocument "A") := by
    decide +kernel
  have hread' : chats.readTextIn "schemas/asyncapi" "chat.v2.json"
      = .ok (Source.plainDocument "B") := by
    decide +kernel
  have hfirst : Source.loadSpace ⟨chats, "schemas"⟩ [] ⟨"schemas/asyncapi", "chat.json"⟩
      = .ok ⟨"chat", "A", []⟩ :=
    Source.loadSpace_of_no_channels (by decide) hread (by decide +kernel)
  have hsecond : Source.loadSpace ⟨chats, "schemas"⟩ [] ⟨"schemas/asyncapi", "chat.v2.json"⟩
      = .ok ⟨"chat", "B", []⟩ :=
    Source.loadSpace_of_no_channels (by decide) hread' (by decide +kernel)
  rw [Source.loadSpaces, hinputs, List.mapM_cons, List.mapM_cons, List.mapM_nil, hfirst, hsecond]
  rfl

theorem stagedFiles_chats (outDir : String) : stagedFiles (fun _ => none) ⟨none, some "schemas"⟩
    (some outDir) [.entities, .sockets] true chats = .ok (chatFiles outDir) := by
  have hconfig : settings ⟨none, some "schemas"⟩ chats = .ok { schemaDir := "schemas" } := by
    decide +kernel
  have hnames : Source.entityNames ⟨chats, "schemas"⟩ = [] := by
    rw [Source.entityNames, Source.entityFiles, entityInputs_chats]
    rfl
  have hentities : generatorFiles { schemaDir := "schemas", outDir := outDir }
      (Formatter.none.format fun _ => none) .entities chats
      = .ok [⟨Path.join outDir "schemas.ts", Entity.preamble⟩] := by
    rw [generatorFiles, Generator.stage, Generator.generate, Generator.entityModule,
      Source.loadEntities, entityInputs_chats]
    rfl
  have hsockets : generatorFiles { schemaDir := "schemas", outDir := outDir }
      (Formatter.none.format fun _ => none) .sockets chats
      = .ok [chatClient outDir "A", chatClient outDir "B"] := by
    rw [generatorFiles, Generator.stage, Generator.generate, Generator.clientModules, hnames,
      loadSpaces_chats]
    rfl
  rw [stagedFiles, hconfig]
  show chosenFiles { schemaDir := "schemas", outDir := outDir }
    (Formatter.none.format fun _ => none) [.entities, .sockets] chats = _
  rw [chosenFiles]
  show (do
    let staged ← [Generator.entities, .sockets].mapM fun g => generatorFiles _ _ g chats
    Except.ok staged.flatten) = _
  rw [List.mapM_cons, List.mapM_cons, List.mapM_nil, hentities, hsockets]
  rfl

theorem ending_generateChats (outDir : String) : ending (generateChats outDir) ⟨chats, "", ""⟩
    = (((StagedFile.writeAll (chatFiles outDir)).run.run chats).1.mapError .ofOutput,
      ((StagedFile.writeAll (chatFiles outDir)).run.run chats).2) := by
  rw [generateChats, ending_runGenerate, stagedFiles_chats]

theorem ending_generateChats_out : ending (generateChats "out") ⟨chats, "", ""⟩
    = (.ok (), ((StagedFile.writeAll (chatFiles "out")).run.run chats).2) := by
  have houtcome : ((StagedFile.writeAll (chatFiles "out")).run.run chats).1 = .ok () := by
    decide +kernel
  rw [ending_generateChats, houtcome]
  rfl

theorem runGenerate_succeeds_chats : ∃ after,
    ending (generateChats "out") ⟨chats, "", ""⟩ = (.ok (), after) ∧
      after.readText "out/sockets-chat.ts" = .ok (chatClient "out" "B").content := by
  refine ⟨_, ending_generateChats_out, ?_⟩
  obtain ⟨_, files, -, hstaged, -, -, hlast, -⟩ := runGenerate_succeeds ending_generateChats_out
  obtain rfl := Except.ok.inj ((stagedFiles_chats "out").symm.trans hstaged)
  exact hlast [_, _] (chatClient "out" "B") [] rfl (fun _ h => absurd h List.not_mem_nil)

/-- The names of the modules differ, and no failure is reported, but the client of the first
document is not there. -/
theorem generateChats_overwrites : ∃ config files after,
    settings ⟨none, some "schemas"⟩ chats = .ok config ∧
      [config.entities.output, config.api.output, config.sockets.outputLead ++ "-chat.ts"].Nodup ∧
      stagedFiles (fun _ => none) ⟨none, some "schemas"⟩ (some "out") [.entities, .sockets] true
        chats = .ok files ∧
      ending (generateChats "out") ⟨chats, "", ""⟩ = (.ok (), after) ∧
      ¬ ∀ file ∈ files, after.readText file.path = .ok file.content := by
  refine ⟨{ schemaDir := "schemas" }, _, _, by decide +kernel, by decide, stagedFiles_chats "out",
    ending_generateChats_out, fun h => ?_⟩
  have hA := h (chatClient "out" "A") (by simp [chatFiles])
  have hB := h (chatClient "out" "B") (by simp [chatFiles])
  have hne : (chatClient "out" "A").content ≠ (chatClient "out" "B").content := by decide +kernel
  exact hne (Except.ok.inj (hA.symm.trans hB))

/-! ### Runs that fail -/

/-- A run that fails before it writes leaves the workspace as it was. One that fails at a file has
written those before it, and no other file has changed. -/
theorem runGenerate_fails {failure : CommandFailure}
    (h : ending (runGenerate programs inputs outDir only unformatted) s = (.error failure, after)) :
    (stagedFiles programs inputs outDir only unformatted s.workspace = .error failure ∧
        after = s.workspace) ∨
      ∃ written failed rest fault,
        stagedFiles programs inputs outDir only unformatted s.workspace
          = .ok (written ++ failed :: rest) ∧
        failure = .ofOutput (.file failed.path fault) ∧
        (∀ earlier file later, written = earlier ++ file :: later →
          (∀ other ∈ later, after.locate other.path ≠ after.locate file.path) →
          after.readText file.path = .ok file.content) ∧
        ∀ location content, location ∉ StagedFile.places after written →
          (after.tree.get? location = some (.file content) ↔
            s.workspace.tree.get? location = some (.file content)) := by
  rcases runGenerate_cases h with ⟨_, houtcome, hstaged, rfl⟩ | ⟨_, houtcome, -⟩ |
    ⟨written, failed, rest, fault, houtcome, hstaged, hwritten⟩
  · cases houtcome
    exact .inl ⟨hstaged, rfl⟩
  · cases houtcome
  · cases houtcome
    exact .inr ⟨written, failed, rest, fault, hstaged, rfl, hwritten.last, hwritten.grows.file_iff⟩

theorem ending_generateChats_old : ending (generateChats "old") ⟨chats, "", ""⟩
    = (.error (.ofOutput (.file "old/sockets-chat.ts" .isFolder)),
      ((StagedFile.writeAll (chatFiles "old")).run.run chats).2) := by
  have houtcome : ((StagedFile.writeAll (chatFiles "old")).run.run chats).1
      = .error (.file "old/sockets-chat.ts" .isFolder) := by
    decide +kernel
  rw [ending_generateChats, houtcome]
  rfl

theorem runGenerate_fails_chats : ∃ failure after written failed rest,
    ending (generateChats "old") ⟨chats, "", ""⟩ = (.error failure, after) ∧
      chatFiles "old" = written ++ failed :: rest ∧
      ∀ location content, location ∉ StagedFile.places after written →
        (after.tree.get? location = some (.file content) ↔
          chats.tree.get? location = some (.file content)) := by
  rcases runGenerate_fails ending_generateChats_old with
    ⟨hstaged, -⟩ | ⟨written, failed, rest, _, hstaged, -, -, hfiles⟩
  · exact absurd ((stagedFiles_chats "old").symm.trans hstaged) (by simp)
  · exact ⟨_, _, written, failed, rest, ending_generateChats_old,
      Except.ok.inj ((stagedFiles_chats "old").symm.trans hstaged), hfiles⟩

/-- The run fails, and the entity module is not the one that was there. -/
theorem generateChats_leaves_module : ∃ failure after,
    ending (generateChats "old") ⟨chats, "", ""⟩ = (.error failure, after) ∧
      chats.readText "old/schemas.ts" = .ok "old" ∧
      after.readText "old/schemas.ts" = .ok Entity.preamble ∧ Entity.preamble ≠ "old" :=
  ⟨_, _, ending_generateChats_old, by decide +kernel, by decide +kernel, by decide +kernel⟩

end TypedClients.Command
