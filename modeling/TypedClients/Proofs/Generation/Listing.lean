import TypedClients.Generation
import TypedClients.Proofs.Generation.Paths
import TypedClients.Proofs.Workspace.Listing

/-!
# Generating from rearranged folders

The files of a folder are taken in the order of their names as they are read, whatever order the
folder lists them in (`Rearranged.listFiles`). All that is read of the inputs goes through these
lists and the texts of files, so the generators give the same files, and fail in the same way, from
inputs whose folders list their entries in another order (`Generator.stage_rearranged`).

## What is proved

* The paths of the files, and so the names of the entities and all of the HTTP module, are the same
  in any case (`Rearranged.listFiles_path`). They depend on nothing but how names are read.
* The lists of the files themselves are the same if their names are distinct as the program has
  them, in their readings (`Rearranged.listFiles`). Names that are texts are what they are read as,
  so for them it is enough that they are distinct (`InputFile.toldApart_of_text`).
* Without that they are not. Two names that are no texts can differ and be read alike, and then the
  files are taken in the order in which the folder lists them (`Generator.generate_alikeDocuments`).

All folders of the tree may be rearranged at once, and to any depth. What the folders hold is the
same on both sides; nothing is said of files that are added or renamed.
-/

namespace TypedClients

/-! ### Sorting by a key -/

section

variable {α : Type} (key : α → String)

theorem not_lt_iff_le (a b : String) : (!decide (b < a)) = true ↔ a ≤ b := by
  rw [Bool.not_eq_true', decide_eq_false_iff_not, String.not_lt]

theorem pairwise_mergeSort_key (items : List α) :
    (items.mergeSort fun a b => !(key b < key a)).Pairwise
      fun a b => (!decide (key b < key a)) = true := by
  refine List.pairwise_mergeSort (fun a b c hab hbc => ?_) (fun a b => ?_) items
  · rw [not_lt_iff_le] at hab hbc ⊢
    exact String.le_trans hab hbc
  · rw [Bool.or_eq_true, not_lt_iff_le, not_lt_iff_le]
    exact String.le_total (key a) (key b)

theorem mergeSort_key_perm {items others : List α} (h : items.Perm others) :
    (items.mergeSort fun a b => !(key b < key a)).Perm
      (others.mergeSort fun a b => !(key b < key a)) :=
  (List.mergeSort_perm _ _).trans (h.trans (List.mergeSort_perm _ _).symm)

/-- Sorted by a key that tells them apart, two lists of the same items are one list. -/
theorem mergeSort_key_eq_of_perm {items others : List α} (h : items.Perm others)
    (hapart : ∀ a ∈ items, ∀ b ∈ items, key a = key b → a = b) :
    (items.mergeSort fun a b => !(key b < key a)) = others.mergeSort fun a b => !(key b < key a) := by
  refine (mergeSort_key_perm key h).eq_of_pairwise (fun a b ha hb hab hba => ?_)
    (pairwise_mergeSort_key key items) (pairwise_mergeSort_key key others)
  have hkey : key a = key b :=
    String.le_antisymm ((not_lt_iff_le _ _).mp hab) ((not_lt_iff_le _ _).mp hba)
  exact hapart a (List.mem_mergeSort.mp ha) b (h.mem_iff.mpr (List.mem_mergeSort.mp hb)) hkey

/-- The keys come in the same order whether they tell the items apart or not. -/
theorem map_mergeSort_key_of_perm {items others : List α} (h : items.Perm others) :
    (items.mergeSort fun a b => !(key b < key a)).map key
      = (others.mergeSort fun a b => !(key b < key a)).map key := by
  have hsorted : ∀ items : List α, ((items.mergeSort fun a b => !(key b < key a)).map key).Pairwise
      fun a b => (!decide (b < a)) = true :=
    fun items => List.pairwise_map.mpr (pairwise_mergeSort_key key items)
  refine ((mergeSort_key_perm key h).map key).eq_of_pairwise (fun a b _ _ hab hba => ?_)
    (hsorted items) (hsorted others)
  exact String.le_antisymm ((not_lt_iff_le a b).mp hab) ((not_lt_iff_le b a).mp hba)

end

/-- The names of the files are distinct as the program has them: no two differ and are read
alike. -/
def InputFile.ToldApart (files : List InputFile) : Prop :=
  ∀ first ∈ files, ∀ second ∈ files,
    first.name.reading = second.name.reading → first.name = second.name

theorem InputFile.toldApart_of_text {files : List InputFile}
    (h : ∀ file ∈ files, ∃ text, file.name = .text text) : ToldApart files := by
  intro first hfirst second hsecond hreading
  obtain ⟨text, htext⟩ := h first hfirst
  obtain ⟨text', htext'⟩ := h second hsecond
  rw [htext, htext', FileName.reading_text, FileName.reading_text] at hreading
  rw [htext, htext', hreading]

/-- The files of a folder that a generator reads one after the other. -/
def Generator.inputs (source : Source) : Generator → List InputFile
  | .entities => source.entityInputs
  | .api => []
  | .sockets => source.asyncApiInputs

namespace Source

/-- The same inputs, but for the order in which folders list their entries. -/
structure Rearranged (source other : Source) : Prop where
  workspace : source.workspace.Rearranged other.workspace
  root : source.root = other.root

namespace Rearranged

variable {source other : Source} (h : source.Rearranged other)

include h

theorem filter_fileNames (folder : String) (keep : String → Bool) :
    ((source.workspace.fileNames folder).filter fun name => keep name.reading).Perm
      ((other.workspace.fileNames folder).filter fun name => keep name.reading) :=
  (h.workspace.fileNames folder).filter _

/-- The files have the same paths. -/
theorem listFiles_path (folder : String) (keep : String → Bool) :
    (source.listFiles folder keep).map InputFile.path
      = (other.listFiles folder keep).map InputFile.path := by
  have hreadings := map_mergeSort_key_of_perm FileName.reading (h.filter_fileNames folder keep)
  have hpath : ∀ names : List FileName, (names.map (InputFile.mk folder)).map InputFile.path
      = (names.map FileName.reading).map (Path.join folder) := fun names => by
    rw [List.map_map, List.map_map]
    rfl
  rw [Source.listFiles, Source.listFiles, hpath, hpath, hreadings]

/-- They are the same files, if their readings tell the names apart. -/
theorem listFiles {folder : String} {keep : String → Bool}
    (hapart : InputFile.ToldApart (source.listFiles folder keep)) :
    source.listFiles folder keep = other.listFiles folder keep := by
  have hmem : ∀ name ∈ (source.workspace.fileNames folder).filter fun name => keep name.reading,
      InputFile.mk folder name ∈ source.listFiles folder keep :=
    fun name hname => List.mem_map_of_mem (List.mem_mergeSort.mpr hname)
  rw [Source.listFiles, Source.listFiles,
    mergeSort_key_eq_of_perm FileName.reading (h.filter_fileNames folder keep)
      fun a ha b hb => hapart _ (hmem a ha) _ (hmem b hb)]

theorem entityFolder : source.entityFolder = other.entityFolder := by
  rw [Source.entityFolder, Source.entityFolder, h.root]

theorem asyncApiFolder : source.asyncApiFolder = other.asyncApiFolder := by
  rw [Source.asyncApiFolder, Source.asyncApiFolder, h.root]

theorem entityFiles : source.entityFiles = other.entityFiles := by
  rw [Source.entityFiles, Source.entityFiles, entityInputs, entityInputs, h.entityFolder,
    h.listFiles_path]

theorem asyncApiFiles : source.asyncApiFiles = other.asyncApiFiles := by
  rw [Source.asyncApiFiles, Source.asyncApiFiles, asyncApiInputs, asyncApiInputs, h.asyncApiFolder,
    h.listFiles_path]

theorem entityInputs (hapart : InputFile.ToldApart source.entityInputs) :
    source.entityInputs = other.entityInputs := by
  rw [Source.entityInputs, Source.entityInputs, ← h.entityFolder]
  exact h.listFiles hapart

theorem asyncApiInputs (hapart : InputFile.ToldApart source.asyncApiInputs) :
    source.asyncApiInputs = other.asyncApiInputs := by
  rw [Source.asyncApiInputs, Source.asyncApiInputs, ← h.asyncApiFolder]
  exact h.listFiles hapart

theorem read : source.read = other.read := by
  funext file
  rw [Source.read, Source.read, h.workspace.readTextIn]

theorem entityNames : source.entityNames = other.entityNames := by
  rw [Source.entityNames, Source.entityNames, h.entityFiles]

theorem loadEntities (hapart : InputFile.ToldApart source.entityInputs) :
    source.loadEntities = other.loadEntities := by
  have hload : source.loadEntity = other.loadEntity := by
    funext names file
    rw [Source.loadEntity, Source.loadEntity, h.read]
  rw [Source.loadEntities, Source.loadEntities, h.entityInputs hapart, h.entityNames, hload]

theorem loadEndpoints : source.loadEndpoints = other.loadEndpoints := by
  funext names
  rw [Source.loadEndpoints, Source.loadEndpoints, openApiPath, openApiPath, h.root,
    h.workspace.readText]

theorem loadSpaces (hapart : InputFile.ToldApart source.asyncApiInputs) :
    source.loadSpaces = other.loadSpaces := by
  have hload : source.loadSpace = other.loadSpace := by
    funext names file
    rw [Source.loadSpace, Source.loadSpace, h.read]
  funext names
  rw [Source.loadSpaces, Source.loadSpaces, h.asyncApiInputs hapart, hload]

theorem generate (config : Config) {generator : Generator}
    (hapart : InputFile.ToldApart (generator.inputs source)) :
    generator.generate source config = generator.generate other config := by
  cases generator with
  | entities =>
    rw [Generator.generate, Generator.generate, Generator.entityModule, Generator.entityModule,
      h.loadEntities hapart]
  | api =>
    rw [Generator.generate, Generator.generate, Generator.hookModule, Generator.hookModule,
      h.entityNames, h.loadEndpoints]
  | sockets =>
    rw [Generator.generate, Generator.generate, Generator.clientModules, Generator.clientModules,
      h.entityNames, h.loadSpaces hapart]

end Rearranged

/-- Inputs of which two folders have the given entries. -/
def ofFolders (entities documents : List (FileName × Entry)) : Source :=
  ⟨⟨.folder [("schemas", .folder [("entities", .folder entities),
    ("asyncapi", .folder documents)])], []⟩, "schemas"⟩

theorem rearranged_ofFolders {entities entities' documents documents' : List (FileName × Entry)}
    (hentities : (Keyed.keys entities).Nodup) (hperm : entities.Perm entities')
    (hdocuments : (Keyed.keys documents).Nodup) (hperm' : documents.Perm documents') :
    (ofFolders entities documents).Rearranged (ofFolders entities' documents') := by
  refine ⟨⟨?_, rfl⟩, rfl⟩
  have hentities : (Entry.folder [("entities", .folder entities),
      ("asyncapi", .folder documents)]).Rearranged
        (.folder [("entities", .folder entities'), ("asyncapi", .folder documents)]) :=
    @Entry.Rearranged.inside [] _ _ _ _ (.listed hentities hperm)
  have hdocuments : (Entry.folder [("entities", .folder entities'),
      ("asyncapi", .folder documents)]).Rearranged
        (.folder [("entities", .folder entities'), ("asyncapi", .folder documents')]) :=
    @Entry.Rearranged.inside [_] _ _ _ _ (.listed hdocuments hperm')
  exact @Entry.Rearranged.inside [] [] _ _ _ (hentities.trans hdocuments)

end Source

namespace Generator

/-- The paths that are found, the names of the entities, and the HTTP module do not depend on the
order in which folders list their entries. Neither does anything else that is read of the inputs or
made of them, errors as well as files, if the names of the files that are read are distinct as the
program has them. Names that are texts always are. -/
theorem stage_rearranged {source other : Source} (h : source.Rearranged other) :
    source.entityFiles = other.entityFiles ∧ source.asyncApiFiles = other.asyncApiFiles ∧
      source.entityNames = other.entityNames ∧
      (InputFile.ToldApart source.entityInputs → source.loadEntities = other.loadEntities) ∧
      (InputFile.ToldApart source.asyncApiInputs → source.loadSpaces = other.loadSpaces) ∧
      ∀ generator : Generator,
        ((∀ file ∈ generator.inputs source, ∃ text, file.name = .text text) →
          InputFile.ToldApart (generator.inputs source)) ∧
        (InputFile.ToldApart (generator.inputs source) → ∀ config,
          generator.generate source config = generator.generate other config ∧
            ∀ format,
              generator.stage source config format = generator.stage other config format) := by
  refine ⟨h.entityFiles, h.asyncApiFiles, h.entityNames, h.loadEntities, h.loadSpaces,
    fun generator => ⟨InputFile.toldApart_of_text, fun hapart config => ?_⟩⟩
  have hgenerate := h.generate config hapart
  exact ⟨hgenerate, fun format => by rw [stage, stage, hgenerate]⟩

/-- Two entity files. -/
def petFiles : List (FileName × Entry) :=
  [("owner.schema.json", .file (.text "\x7b\"type\":\"string\"\x7d")),
    ("pet.schema.json", .file (.text "\x7b\"type\":\"number\"\x7d"))]

/-- Two documents, of which neither can be read. -/
def brokenDocuments : List (FileName × Entry) :=
  [("chat.json", .file (.text "")), ("news.json", .file (.text "x"))]

theorem entityInputs_petFiles : (Source.ofFolders petFiles brokenDocuments).entityInputs
    = [⟨"schemas/entities", "owner.schema.json"⟩, ⟨"schemas/entities", "pet.schema.json"⟩] :=
  Source.listFiles_of_sorted ["owner.schema.json", "pet.schema.json"]
    (by decide +kernel) (by decide)

theorem asyncApiInputs_brokenDocuments :
    (Source.ofFolders petFiles brokenDocuments).asyncApiInputs
      = [⟨"schemas/asyncapi", "chat.json"⟩, ⟨"schemas/asyncapi", "news.json"⟩] :=
  Source.listFiles_of_sorted ["chat.json", "news.json"] (by decide +kernel) (by decide)

/-- Listed the other way round, the entities have the order of their names, and it is the first
document that the reading of them fails at. -/
theorem stage_rearranged_pets :
    (Source.ofFolders petFiles.reverse brokenDocuments.reverse).entityNames = ["Owner", "Pet"] ∧
      (Source.ofFolders petFiles.reverse brokenDocuments.reverse).loadSpaces ["Owner", "Pet"] =
        .error (.parse "schemas/asyncapi/chat.json" (.json .truncated)) := by
  have hrearranged : (Source.ofFolders petFiles brokenDocuments).Rearranged
      (Source.ofFolders petFiles.reverse brokenDocuments.reverse) :=
    Source.rearranged_ofFolders (by decide) (List.reverse_perm _).symm (by decide)
      (List.reverse_perm _).symm
  obtain ⟨-, -, hnames, -, hspaces, -⟩ := stage_rearranged hrearranged
  constructor
  · rw [← hnames, Source.entityNames, Source.entityFiles, entityInputs_petFiles]
    decide +kernel
  · have hapart : InputFile.ToldApart
        (Source.ofFolders petFiles brokenDocuments).asyncApiInputs := by
      refine InputFile.toldApart_of_text ?_
      rw [asyncApiInputs_brokenDocuments]
      simp
    have hread : (Source.ofFolders petFiles brokenDocuments).read
        ⟨"schemas/asyncapi", "chat.json"⟩ = .ok "" := by
      decide +kernel
    have hload : (Source.ofFolders petFiles brokenDocuments).loadSpace ["Owner", "Pet"]
        ⟨"schemas/asyncapi", "chat.json"⟩
        = .error (.parse "schemas/asyncapi/chat.json" (.json .truncated)) := by
      rw [Source.loadSpace, hread]
      rfl
    rw [← hspaces hapart, Source.loadSpaces, asyncApiInputs_brokenDocuments, List.mapM_cons, hload]
    rfl

/-- Two names that are no texts. Both are read as the replacement character and the ending. -/
def strangeName : FileName :=
  .bytes (0xFF :: Text.encode ".json") (by decide)

@[inherit_doc strangeName]
def otherName : FileName :=
  .bytes (0xFE :: Text.encode ".json") (by decide)

/-- Two documents whose names are read alike. -/
def alikeDocuments : List (FileName × Entry) :=
  [(strangeName, .file (.text (Source.plainDocument "A"))),
    (otherName, .file (.text (Source.plainDocument "B")))]

/-- The client of such a document. -/
def alikeClient (title : String) : GeneratedFile :=
  ⟨"sockets-\ufffd.ts", [Socket.clientText ⟨"\ufffd", title, []⟩ "./schemas" []]⟩

theorem loadSpace_strange {source : Source} {name : FileName} {title : String}
    (hreading : name.reading = "\ufffd.json")
    (hread : source.workspace.readTextIn "schemas/asyncapi" name
      = .ok (Source.plainDocument title))
    (hparse : (AsyncApi.Document.parse (Source.plainDocument title)).toOption.map
      (fun document => (document.title, document.channels.length)) = some (title, 0)) :
    source.loadSpace [] ⟨"schemas/asyncapi", name⟩ = .ok ⟨"\ufffd", title, []⟩ := by
  refine Source.loadSpace_of_no_channels ?_ hread hparse
  rw [InputFile.path, hreading]
  show Source.namespaceOf (Path.join "schemas/asyncapi" "\ufffd.json") = "\ufffd"
  decide +kernel

theorem generate_strange {source : Source} {first second : InputFile} {title other : String}
    (hentities : source.entityInputs = []) (hinputs : source.asyncApiInputs = [first, second])
    (hfirst : source.loadSpace [] first = .ok ⟨"\ufffd", title, []⟩)
    (hsecond : source.loadSpace [] second = .ok ⟨"\ufffd", other, []⟩) :
    source.loadSpaces [] = .ok [⟨"\ufffd", title, []⟩, ⟨"\ufffd", other, []⟩] ∧
      Generator.sockets.generate source {} = .ok ⟨[alikeClient title, alikeClient other], []⟩ := by
  have hnames : source.entityNames = [] := by
    rw [Source.entityNames, Source.entityFiles, hentities]
    rfl
  have hspaces : source.loadSpaces [] = .ok [⟨"\ufffd", title, []⟩, ⟨"\ufffd", other, []⟩] := by
    rw [Source.loadSpaces, hinputs, List.mapM_cons, List.mapM_cons, List.mapM_nil, hfirst, hsecond]
    rfl
  refine ⟨hspaces, ?_⟩
  rw [generate, clientModules, hnames, hspaces]
  rfl

/-- The documents are taken in the order in which the folder lists them, and so it depends on this
order which client is written last, in the place of the other one. -/
theorem generate_alikeDocuments :
    (strangeName ≠ otherName ∧ strangeName.reading = otherName.reading) ∧
      (Source.ofFolders [] alikeDocuments).Rearranged
        (Source.ofFolders [] alikeDocuments.reverse) ∧
      ((Source.ofFolders [] alikeDocuments).loadSpaces []
          = .ok [⟨"\ufffd", "A", []⟩, ⟨"\ufffd", "B", []⟩] ∧
        Generator.sockets.generate (Source.ofFolders [] alikeDocuments) {}
          = .ok ⟨[alikeClient "A", alikeClient "B"], []⟩) ∧
      ((Source.ofFolders [] alikeDocuments.reverse).loadSpaces []
          = .ok [⟨"\ufffd", "B", []⟩, ⟨"\ufffd", "A", []⟩] ∧
        Generator.sockets.generate (Source.ofFolders [] alikeDocuments.reverse) {}
          = .ok ⟨[alikeClient "B", alikeClient "A"], []⟩) ∧
      (alikeClient "A").path = (alikeClient "B").path ∧
      (alikeClient "A").fragments ≠ (alikeClient "B").fragments := by
  have hA : (AsyncApi.Document.parse (Source.plainDocument "A")).toOption.map
      (fun document => (document.title, document.channels.length)) = some ("A", 0) := by
    decide +kernel
  have hB : (AsyncApi.Document.parse (Source.plainDocument "B")).toOption.map
      (fun document => (document.title, document.channels.length)) = some ("B", 0) := by
    decide +kernel
  have hreading : strangeName.reading = "\ufffd.json" := by decide +kernel
  have hreading' : otherName.reading = "\ufffd.json" := by decide +kernel
  refine ⟨⟨by decide, hreading.trans hreading'.symm⟩,
    Source.rearranged_ofFolders (by decide) .nil (by decide +kernel) (List.reverse_perm _).symm,
    ?_, ?_, rfl, by decide +kernel⟩
  · exact generate_strange (Source.listFiles_of_sorted [] (by decide +kernel) .nil)
      (Source.listFiles_of_sorted [strangeName, otherName] (by decide +kernel)
        (by decide +kernel))
      (loadSpace_strange hreading (by decide +kernel) hA)
      (loadSpace_strange hreading' (by decide +kernel) hB)
  · exact generate_strange (Source.listFiles_of_sorted [] (by decide +kernel) .nil)
      (Source.listFiles_of_sorted [otherName, strangeName] (by decide +kernel)
        (by decide +kernel))
      (loadSpace_strange hreading' (by decide +kernel) hB)
      (loadSpace_strange hreading (by decide +kernel) hA)

end Generator

end TypedClients
