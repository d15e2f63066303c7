import TypedClients.Generation
import TypedClients.Proofs.Outcome

/-!
# Where generated files go

The paths of the files that a generator makes ready are known from its options, and for the socket
clients from the names of the AsyncAPI documents (`map_path_of_stage`). Of a document's name they
use the part before the first dot, so documents that differ after it are for one path.

## What it is for

Which files a command writes is asked before it is run, so the paths must be known without the
texts. A generator that fails has no paths, and these statements assume that it does not. Paths that
are the same are told apart by their places in the list only; what becomes of the files with one
path is the subject of the modules on writing.
-/

namespace TypedClients

namespace Source

/-- Names that are in order already are taken as they are. -/
theorem listFiles_of_sorted {source : Source} {folder : String} {keep : String → Bool}
    (names : List FileName)
    (hnames : (source.workspace.fileNames folder).filter (fun name => keep name.reading) = names)
    (hsorted : names.Pairwise fun a b => (!(b.reading < a.reading)) = true) :
    source.listFiles folder keep = names.map (InputFile.mk folder) := by
  rw [listFiles, hnames, List.mergeSort_of_pairwise hsorted]

/-- The text of an AsyncAPI document without channels. -/
def plainDocument (title : String) : String :=
  "\x7b\"asyncapi\":\"3.0.0\",\"info\":\x7b\"title\":\"" ++ title ++ "\"\x7d\x7d"

theorem loadSpace_of_no_channels {source : Source} {names : List String} {file : InputFile}
    {text name title : String} (hname : namespaceOf file.path = name)
    (hread : source.workspace.readTextIn file.folder file.name = .ok text)
    (hparse : (AsyncApi.Document.parse text).toOption.map
      (fun document => (document.title, document.channels.length)) = some (title, 0)) :
    source.loadSpace names file = .ok ⟨name, title, []⟩ := by
  cases hdocument : AsyncApi.Document.parse text with
  | error e =>
    rw [hdocument] at hparse
    cases hparse
  | ok document =>
    rw [hdocument] at hparse
    obtain ⟨rfl, hchannels⟩ := Prod.mk.inj (Option.some.inj hparse)
    rw [loadSpace, read, hread]
    show ((AsyncApi.Document.parse text).mapError _ >>= _) = _
    rw [hdocument]
    show (Socket.Space.ofDocument _ _ document).mapError _ = _
    rw [Socket.Space.ofDocument, List.length_eq_zero_iff.mp hchannels, hname]
    rfl

theorem name_of_loadSpace {source : Source} {names : List String} {file : InputFile}
    {space : Socket.Space} (h : source.loadSpace names file = .ok space) :
    space.name = namespaceOf file.path := by
  obtain ⟨text, -, h⟩ := bind_eq_ok.mp h
  obtain ⟨document, -, h⟩ := bind_eq_ok.mp h
  obtain ⟨channels, -, h⟩ := bind_eq_ok.mp (mapError_eq_ok.mp h)
  rw [← Except.ok.inj h]

end Source

namespace Generator

/-- The paths below the output folder that a generator makes files for. -/
def outputs (source : Source) (config : Config) : Generator → List String
  | .entities => [config.entities.output]
  | .api => [config.api.output]
  | .sockets => source.asyncApiFiles.map fun document =>
    config.sockets.outputLead ++ "-" ++ Source.namespaceOf document ++ ".ts"

variable {source : Source} {config : Config}

theorem map_path_of_clientModules {options : SocketOptions} {generation : Generation}
    (h : clientModules source options = .ok generation) :
    generation.files.map GeneratedFile.path = source.asyncApiFiles.map fun document =>
      options.outputLead ++ "-" ++ Source.namespaceOf document ++ ".ts" := by
  obtain ⟨spaces, hspaces, h⟩ := bind_eq_ok.mp h
  obtain ⟨files, hfiles, h⟩ := bind_eq_ok.mp h
  cases h
  have hnames : source.asyncApiFiles.map Source.namespaceOf = spaces.map Socket.Space.name := by
    have hloaded := forall₂_of_mapM (mapError_eq_ok.mp hspaces)
    simp only [Source.asyncApiFiles, List.map_map, Function.comp_def]
    exact map_eq_map_of_forall₂ (hloaded.imp fun file space h => (Source.name_of_loadSpace h).symm)
  have hpaths : spaces.map (fun space => options.outputLead ++ "-" ++ space.name ++ ".ts")
      = files.map GeneratedFile.path := by
    refine map_eq_map_of_forall₂ ((forall₂_of_mapM hfiles).imp fun space file h => ?_)
    obtain ⟨text, -, h⟩ := bind_eq_ok.mp h
    cases h
    rfl
  calc files.map GeneratedFile.path
      = (spaces.map Socket.Space.name).map fun name => options.outputLead ++ "-" ++ name ++ ".ts" := by
        rw [← hpaths, List.map_map]
        rfl
    _ = (source.asyncApiFiles.map Source.namespaceOf).map fun name =>
        options.outputLead ++ "-" ++ name ++ ".ts" := by rw [hnames]
    _ = _ := List.map_map

theorem map_path_of_generate {generator : Generator} {generation : Generation}
    (h : generator.generate source config = .ok generation) :
    generation.files.map GeneratedFile.path = generator.outputs source config := by
  cases generator with
  | entities =>
    obtain ⟨entities, -, h⟩ := bind_eq_ok.mp h
    obtain ⟨_, -, h⟩ := bind_eq_ok.mp h
    cases h
    rfl
  | api =>
    obtain ⟨endpoints, -, h⟩ := bind_eq_ok.mp h
    obtain ⟨⟨fragments, warnings⟩, -, h⟩ := bind_eq_ok.mp h
    cases h
    rfl
  | sockets => exact map_path_of_clientModules h

theorem map_path_of_stage {generator : Generator} {format : Formatting}
    {files : List StagedFile} {warnings : List String}
    (h : generator.stage source config format = .ok (files, warnings)) :
    files.map StagedFile.path
      = (generator.outputs source config).map (Path.join config.outDir) := by
  obtain ⟨generation, hgeneration, h⟩ := bind_eq_ok.mp h
  obtain ⟨staged, hstaged, h⟩ := bind_eq_ok.mp h
  cases h
  rw [← map_path_of_generate hgeneration, List.map_map]
  refine (map_eq_map_of_forall₂ ?_).symm
  refine (forall₂_of_mapM hstaged).imp fun file staged h => ?_
  obtain ⟨formatted, -, h⟩ := bind_eq_ok.mp (mapError_eq_ok.mp h)
  cases h
  rfl

end Generator

end TypedClients
