import TypedClients.Proofs.Generation.Paths
import TypedClients.Proofs.Generation.ReferenceClosure
import TypedClients.Proofs.Name.Entity

/-!
# The names of the generators

Besides the entities, the modules have names that come from the generators: what their heads import
and export, the exported object, and the global types that their texts mention. Nothing compares the
names of entities with these. Most begin with a small letter, which no entity's name does; of the
others, each is the name of the entities whose stems are spelled like it.

## The names and the text

The names are not collected from the text of a module. They are those of the statements that its
head is made of, which are written down here as data (`Import`, `Export`), and of a few types that
it mentions. So there are two things to prove about them.

* They are the names of the text: `Entity.NamesStand` and `Hook.NamesStand` say where each stands.
  The heads are the statements and nothing else, the exported object is one more statement, and what
  is spelled with a global type mentions it.
* They are not the names of entities, exactly where no stem is spelled like one of those with a
  capital letter (`Generator.generate_ownNames_iff`). Where one is, the modules are generated all the
  same (`Generator.generate_axiosInstance`).

## What is not here

What the options put in the head of the module of hooks is text of the user's, and its names are
not among these. Which global types an expression of the validators' module mentions is not looked
at either; the expressions name nothing but that module and entities.
-/

namespace TypedClients

/-! ### Imports and exports -/

/-- The import of names from a module. -/
structure Import where
  /-- The name of what the module exports by default, if it is imported. -/
  whole : Option String
  /-- The names that are imported one by one, each after the word that stands before it. -/
  members : List (String × String)
  path : String

namespace Import

def names (statement : Import) : List String :=
  statement.whole.toList ++ statement.members.map Prod.snd

def text (statement : Import) : String :=
  "import " ++ (statement.whole.map (· ++ ", ")).getD "" ++ "\x7b "
    ++ ", ".intercalate (statement.members.map fun member => member.1 ++ member.2)
    ++ " \x7d from \"" ++ statement.path ++ "\";"

end Import

/-- The export of a name. -/
structure Export where
  keyword : String
  name : String
  definition : String

def Export.text (statement : Export) : String :=
  "export " ++ statement.keyword ++ " " ++ statement.name ++ statement.definition

/-- A name stands in a text. -/
def Mentions (text name : String) : Prop :=
  ∃ before after, text = before ++ (name ++ after)

theorem Mentions.intro {text name after : String} (before : String)
    (h : text = before ++ (name ++ after)) : Mentions text name :=
  ⟨before, after, h⟩

namespace Entity

def imports : List Import :=
  [⟨none, [("", "z")], "zod"⟩]

/-- The names of the entity module that are no entity's: the validators' module, and the global type
that records are spelled with. -/
def ownNames : List String :=
  imports.flatMap Import.names ++ ["Record"]

theorem preamble_eq :
    preamble = Script.generatedMarker ++ "\n"
      ++ String.join (imports.map fun statement => statement.text ++ "\n") := by
  decide +kernel

/-- The declarations of a record whose type is spelled out name the type of records. -/
theorem mentions_record {entity : Entity} {required : List String} {additional : Option Node}
    (h : entity.shape = .object [] required additional) : Mentions (text entity true) "Record" := by
  have hrecord : (Node.object [] required additional).typeText .lazy
      = "Record" ++ ("<string, " ++ Node.valueType .lazy additional ++ ">") := by
    unfold Node.typeText
    simp only [← String.append_assoc, String.reduceAppend]
  unfold text
  simp only [h, hrecord, if_true]
  apply Mentions.intro ("export type " ++ entity.name ++ " = ")
  simp only [String.append_assoc]
  rfl

/-- Where the names stand in the text of an entity module. -/
structure NamesStand : Prop where
  names : ownNames = ["z", "Record"]
  /-- The head is a note and the imports. -/
  head : preamble = Script.generatedMarker ++ "\n"
    ++ String.join (imports.map fun statement => statement.text ++ "\n")
  /-- Records whose type is spelled out are spelled with the global type. -/
  record : ∀ (entity : Entity) (required : List String) (additional : Option Node),
    entity.shape = .object [] required additional → Mentions (text entity true) "Record"

theorem namesStand : NamesStand :=
  ⟨by decide +kernel, preamble_eq, fun _ _ _ => mentions_record⟩

end Entity

namespace Hook

def imports : List Import :=
  [⟨none, [("", "z")], "zod"⟩,
   ⟨none, [("", "useQuery"), ("", "useMutation"), ("type ", "UseQueryOptions"),
      ("type ", "UseMutationOptions")], "@tanstack/react-query"⟩,
   ⟨some "axios", [("type ", "AxiosInstance"), ("type ", "CreateAxiosDefaults")], "axios"⟩]

/-- The function that makes a client. -/
def callerMaker : Export :=
  ⟨"const", "createCaller",
    " = (baseURL: string, options: CreateAxiosDefaults = \x7b\x7d): AxiosInstance =>\n"
      ++ "  axios.create(\x7b withCredentials: true, ...options, baseURL \x7d);\n"⟩

/-- The client that the hooks use. -/
def callerExport (options : ApiOptions) : Export :=
  ⟨"let", "caller", ": AxiosInstance = createCaller(" ++ options.baseUrl ++ ");\n"⟩

/-- The function that replaces it. -/
def callerSetter : Export :=
  ⟨"const", "configureCaller",
    " = (instance: AxiosInstance): void => \x7b\n" ++ "  caller = instance;\n" ++ "\x7d;\n"⟩

/-- The object that holds the hooks. -/
def objectExport (buckets : List TagBuckets) : Export :=
  ⟨"const", "api", " = \x7b\n" ++ "".intercalate (buckets.map TagBuckets.text) ++ "\x7d;\n"⟩

/-- The names of the module that are neither an entity's nor declared for a hook: what its head
imports and exports, the exported object, and the global types that the hooks mention. -/
def ownNames : List String :=
  imports.flatMap Import.names
    ++ [callerMaker.name, (callerExport {}).name, callerSetter.name, (objectExport []).name]
    ++ ["Error", "Partial"]

theorem preamble_eq (options : ApiOptions) (entities : List String) :
    preamble options entities
      = Script.generatedMarker ++ "\n"
        ++ String.join (imports.map fun statement => statement.text ++ "\n")
        ++ optionalLine (Text.trim options.baseUrlImport)
        ++ optionalLine (entityImport options entities)
        ++ "\n" ++ callerMaker.text ++ "\n" ++ (callerExport options).text ++ "\n"
        ++ "/** Replace the client every hook uses, e.g. to add interceptors or point at a mock. */\n"
        ++ callerSetter.text := by
  have himports : String.join (imports.map fun statement => statement.text ++ "\n")
      = "import \x7b z \x7d from \"zod\";\n"
        ++ ("import \x7b useQuery, useMutation, type UseQueryOptions, type UseMutationOptions \x7d from "
        ++ ("\"@tanstack/react-query\";\n"
        ++ "import axios, \x7b type AxiosInstance, type CreateAxiosDefaults \x7d from \"axios\";\n")) := by
    decide +kernel
  have hcaller : ∀ rest : String,
      "\n" ++ (callerMaker.text ++ ("\n" ++ ((callerExport options).text ++ rest)))
        = "\nexport const createCaller = (baseURL: string, options: CreateAxiosDefaults = "
          ++ ("\x7b\x7d): AxiosInstance =>\n"
          ++ ("  axios.create(\x7b withCredentials: true, ...options, baseURL \x7d);\n\n"
          ++ ("export let caller: AxiosInstance = createCaller("
          ++ (options.baseUrl ++ (");\n" ++ rest))))) := by
    intro rest
    simp only [callerMaker, callerExport, Export.text, ← String.append_assoc, String.reduceAppend]
  have hsetter : ∀ note : String, ");\n" ++ ("\n" ++ (note ++ callerSetter.text))
      = ");\n\n" ++ (note ++ ("export const configureCaller = (instance: AxiosInstance): void => \x7b\n"
          ++ ("  caller = instance;\n" ++ "\x7d;\n"))) := by
    intro note
    simp only [callerSetter, Export.text, String.reduceAppend, ← String.append_assoc]
  unfold preamble
  simp only [himports, String.append_assoc, hcaller, hsetter]

theorem entityImport_eq (options : ApiOptions) {entities : List String} (h : entities ≠ []) :
    entityImport options entities
      = Import.text ⟨none, entities.map (Prod.mk ""), options.schemasImport⟩ := by
  have hmembers : (entities.map (Prod.mk "")).map (fun member => member.1 ++ member.2)
      = entities := by
    rw [List.map_map]
    exact (List.map_congr_left fun _ _ => String.empty_append).trans (List.map_id _)
  unfold entityImport Import.text
  simp only [hmembers, List.isEmpty_iff, h, if_false, Option.map_none, Option.getD_none,
    String.reduceAppend]

theorem objectText_eq (buckets : List TagBuckets) :
    objectText buckets = (objectExport buckets).text := by
  unfold objectText objectExport Export.text
  generalize "".intercalate (buckets.map TagBuckets.text) = body
  simp only [← String.append_assoc, String.reduceAppend]

theorem mentions_source {plan : Plan} {name : String}
    (h : Mentions (if plan.endpoint.method.isQuery then querySourceText plan else mutationText plan)
      name) : Mentions (source plan) name := by
  unfold source
  cases plan.endpoint.summary with
  | none => exact h
  | some summary =>
    obtain ⟨before, after, htext⟩ := h
    refine ⟨"/** " ++ Script.escapeComment summary ++ " */\n" ++ before, after, ?_⟩
    simp only [htext, String.append_assoc]

/-- The options of a hook are given in part. -/
theorem mentions_partial (plan : Plan) : Mentions (source plan) "Partial" := by
  have hquery : ∀ rest : String, "options?: Partial<UseQueryOptions<" ++ rest
      = "options?: " ++ ("Partial" ++ ("<UseQueryOptions<" ++ rest)) := by
    intro rest
    simp only [← String.append_assoc, String.reduceAppend]
  have hmutation : ∀ rest : String, ": (options?: Partial<UseMutationOptions<" ++ rest
      = ": (options?: " ++ ("Partial" ++ ("<UseMutationOptions<" ++ rest)) := by
    intro rest
    simp only [← String.append_assoc, String.reduceAppend]
  apply mentions_source
  split
  · unfold querySourceText
    cases plan.paramsType with
    | none =>
      apply Mentions.intro (plan.hook ++ (": (" ++ "options?: "))
      simp only [String.append_assoc, hquery]
      rfl
    | some params =>
      apply Mentions.intro (plan.hook ++ (": (" ++ ("params: " ++ (params ++ (", " ++ "options?: ")))))
      simp only [String.append_assoc, hquery]
      rfl
  · unfold mutationText
    apply Mentions.intro (plan.hook ++ ": (options?: ")
    simp only [String.append_assoc, hmutation]
    rfl

/-- A mutation names the type of its errors. -/
theorem mentions_error {plan : Plan} (h : plan.endpoint.method.isQuery = false) :
    Mentions (source plan) "Error" := by
  have hgenerics : ∀ rest : String, ", Error, " ++ rest = ", " ++ ("Error" ++ (", " ++ rest)) := by
    intro rest
    simp only [← String.append_assoc, String.reduceAppend]
  apply mentions_source
  rw [if_neg (by rw [h]; exact Bool.false_ne_true)]
  unfold mutationText
  apply Mentions.intro
    (plan.hook ++ (": (options?: Partial<UseMutationOptions<" ++ (plan.responseType ++ ", ")))
  simp only [String.append_assoc, hgenerics]
  rfl

/-- Where the names stand in the text of a module of hooks. -/
structure NamesStand (options : ApiOptions) (entities : List String) (buckets : List TagBuckets) :
    Prop where
  names : ownNames = ["z", "useQuery", "useMutation", "UseQueryOptions", "UseMutationOptions",
    "axios", "AxiosInstance", "CreateAxiosDefaults", "createCaller", "caller", "configureCaller",
    "api", "Error", "Partial"]
  /-- The head is a note, the imports of the module, the lines that the options and the entities
  add to these, and the exports. -/
  head : preamble options entities
    = Script.generatedMarker ++ "\n"
      ++ String.join (imports.map fun statement => statement.text ++ "\n")
      ++ optionalLine (Text.trim options.baseUrlImport)
      ++ optionalLine (entityImport options entities)
      ++ "\n" ++ callerMaker.text ++ "\n" ++ (callerExport options).text ++ "\n"
      ++ "/** Replace the client every hook uses, e.g. to add interceptors or point at a mock. */\n"
      ++ callerSetter.text
  /-- The entities are imported one by one, if there are any. -/
  imported : entities ≠ [] →
    entityImport options entities = Import.text ⟨none, entities.map (Prod.mk ""), options.schemasImport⟩
  /-- What the options set is not the name of an export. -/
  exported : (callerExport options).name = "caller" ∧ (objectExport buckets).name = "api"
  object : objectText buckets = (objectExport buckets).text
  /-- The options of every hook are given in part. -/
  partly : ∀ plan, Mentions (source plan) "Partial"
  /-- Every mutation names the type of its errors. -/
  errors : ∀ plan, plan.endpoint.method.isQuery = false → Mentions (source plan) "Error"

theorem namesStand (options : ApiOptions) (entities : List String) (buckets : List TagBuckets) :
    NamesStand options entities buckets where
  names := by decide +kernel
  head := preamble_eq options entities
  imported := entityImport_eq options
  exported := ⟨rfl, rfl⟩
  object := objectText_eq buckets
  partly := mentions_partial
  errors _ := mentions_error

end Hook

/-! ### Entities of these names -/

/-- Entities with names of which each is given by certain spellings. -/
theorem Source.forall_entityNames_notMem_iff {source : Source} {names spellings : List String}
    (hdirect : names.all Name.isDirect = true) (hspellings : names.flatMap Name.spellings = spellings) :
    (∀ name ∈ source.entityNames, name ∉ names) ↔
      ∀ path ∈ source.entityFiles, Name.camel (entityStem path) ∉ spellings := by
  have hentity : ∀ stem, Name.entity stem ∈ names ↔ Name.camel stem ∈ spellings := by
    intro stem
    rw [← hspellings, List.mem_flatMap]
    constructor
    · exact fun h => ⟨_, h, (Name.entity_eq_iff (List.all_eq_true.mp hdirect _ h)).mp rfl⟩
    · rintro ⟨name, hname, hspelled⟩
      rwa [(Name.entity_eq_iff (List.all_eq_true.mp hdirect _ hname)).mpr hspelled]
  simp only [mem_entityNames, declaredNames, List.forall_mem_map, hentity]

namespace Generator

/-- Where the entity module and the module of the hooks are generated, the one declares and the other
imports the names of the entities. None of them is one of the module's own exactly if no stem is
spelled like one of these that begins with a capital letter. -/
theorem generate_ownNames_iff {source : Source} {entityOptions : EntityOptions}
    {apiOptions : ApiOptions} {schemas hooks : Generation}
    (hschemas : entityModule source entityOptions = .ok schemas)
    (hhooks : hookModule source apiOptions = .ok hooks) :
    (∃ entities, schemas.files = [⟨entityOptions.output, Entity.fragments entities⟩] ∧
      entities.map Entity.name = source.entityNames ∧ Entity.NamesStand) ∧
    (∃ declarations buckets, hooks.files = [⟨apiOptions.output,
      Hook.preamble apiOptions source.entityNames :: declarations ++ [Hook.objectText buckets]⟩] ∧
      Hook.NamesStand apiOptions source.entityNames buckets) ∧
    ((∀ name ∈ source.entityNames, name ∉ Entity.ownNames) ↔
      ∀ path ∈ source.entityFiles, Name.camel (Source.entityStem path) ∉ ["Record", "record"]) ∧
    ((∀ name ∈ source.entityNames, name ∉ Hook.ownNames) ↔
      ∀ path ∈ source.entityFiles, Name.camel (Source.entityStem path) ∉
        ["UseQueryOptions", "useQueryOptions", "UseMutationOptions", "useMutationOptions",
         "AxiosInstance", "axiosInstance", "CreateAxiosDefaults", "createAxiosDefaults",
         "Error", "error", "Partial", "partial"]) := by
  refine ⟨?_, ?_, ?_, ?_⟩
  · obtain ⟨entities, hload, h⟩ := bind_eq_ok.mp hschemas
    obtain ⟨_, hcheck, h⟩ := bind_eq_ok.mp h
    cases h
    have hnames := Source.names_of_loadEntities (mapError_eq_ok.mp hload)
    have hnodup := (Entity.checkNames_eq_ok_iff.mp (mapError_eq_ok.mp hcheck)).1
    refine ⟨entities, rfl, ?_, Entity.namesStand⟩
    rw [hnames] at hnodup
    rw [hnames, Source.entityNames, ← Source.declaredNames, Keyed.distinct_eq_self hnodup]
  · obtain ⟨endpoints, -, h⟩ := bind_eq_ok.mp hhooks
    obtain ⟨⟨fragments, warnings⟩, hfragments, h⟩ := bind_eq_ok.mp h
    cases h
    obtain ⟨planned, -, h⟩ := bind_eq_ok.mp (mapError_eq_ok.mp hfragments)
    cases h
    exact ⟨_, _, rfl, Hook.namesStand _ _ _⟩
  · exact Source.forall_entityNames_notMem_iff (by decide +kernel) (by decide +kernel)
  · exact Source.forall_entityNames_notMem_iff (by decide +kernel) (by decide +kernel)

/-- A folder with an entity of the given stem, and an operation. -/
def oneEntity (stem : String) : Source :=
  ⟨⟨.folder
    [("schemas", .folder
      [("entities", .folder
        [(stem ++ Source.entityEnding, .file (.text "\x7b\"type\":\"string\"\x7d"))]),
        ("openapi.json", .file (.text ("\x7b\"openapi\":\"3.1.0\",\"info\":\x7b\x7d,\"paths\":"
          ++ "\x7b\"/pets\":\x7b\"post\":\x7b\"operationId\":\"addPet\"\x7d\x7d\x7d\x7d")))])],
    []⟩, "schemas"⟩

theorem entityInputs_oneEntity {stem : String} {name : FileName}
    (hname : ((oneEntity stem).workspace.fileNames "schemas/entities").filter
      (fun name => (Text.before? Source.entityEnding name.reading).isSome) = [name]) :
    (oneEntity stem).entityInputs = [⟨"schemas/entities", name⟩] := by
  have hfolder : (oneEntity stem).entityFolder = "schemas/entities" := by
    show Path.join "schemas" "entities" = _
    decide +kernel
  rw [Source.entityInputs, hfolder]
  exact Source.listFiles_of_sorted [name] hname (List.pairwise_singleton _ _)

theorem generate_ownNames_pet : ∃ schemas hooks,
    entityModule (oneEntity "pet") {} = .ok schemas ∧ hookModule (oneEntity "pet") {} = .ok hooks ∧
      ∀ name ∈ (oneEntity "pet").entityNames, name ∉ Hook.ownNames := by
  have hinputs := @entityInputs_oneEntity "pet" "pet.schema.json" (by decide +kernel)
  have hfiles : (oneEntity "pet").entityFiles = ["schemas/entities/pet.schema.json"] := by
    rw [Source.entityFiles, hinputs]
    decide +kernel
  obtain ⟨schemas, hschemas⟩ : ∃ schemas, entityModule (oneEntity "pet") {} = .ok schemas := by
    apply exists_of_isOk
    rw [entityModule, Source.loadEntities, Source.entityNames, hfiles, hinputs]
    decide +kernel
  obtain ⟨hooks, hhooks⟩ : ∃ hooks, hookModule (oneEntity "pet") {} = .ok hooks := by
    apply exists_of_isOk
    rw [hookModule, Source.entityNames, hfiles]
    decide +kernel
  refine ⟨schemas, hooks, hschemas, hhooks, (generate_ownNames_iff hschemas hhooks).2.2.2.mpr ?_⟩
  rw [hfiles]
  decide +kernel

/-- The entity of a file may be called as the client's type is, and the modules are generated. -/
theorem generate_axiosInstance : ∃ schemas hooks,
    entityModule (oneEntity "axios_instance") {} = .ok schemas ∧
      hookModule (oneEntity "axios_instance") {} = .ok hooks ∧
      "AxiosInstance" ∈ (oneEntity "axios_instance").entityNames ∧ "AxiosInstance" ∈ Hook.ownNames := by
  have hinputs :=
    @entityInputs_oneEntity "axios_instance" "axios_instance.schema.json" (by decide +kernel)
  have hfiles : (oneEntity "axios_instance").entityFiles
      = ["schemas/entities/axios_instance.schema.json"] := by
    rw [Source.entityFiles, hinputs]
    decide +kernel
  obtain ⟨schemas, hschemas⟩ : ∃ schemas, entityModule (oneEntity "axios_instance") {} = .ok schemas := by
    apply exists_of_isOk
    rw [entityModule, Source.loadEntities, Source.entityNames, hfiles, hinputs]
    decide +kernel
  obtain ⟨hooks, hhooks⟩ : ∃ hooks, hookModule (oneEntity "axios_instance") {} = .ok hooks := by
    apply exists_of_isOk
    rw [hookModule, Source.entityNames, hfiles]
    decide +kernel
  refine ⟨schemas, hooks, hschemas, hhooks, ?_, by decide +kernel⟩
  rw [Source.entityNames, hfiles]
  decide +kernel

end Generator

end TypedClients
