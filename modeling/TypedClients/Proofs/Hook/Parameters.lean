import TypedClients.Proofs.Hook.Url

/-!
# Parameters of an endpoint and what its query reads

An endpoint has a parameter for each name that is given in place, at its path or its operation
(`Endpoint.parts_of_ofOperation`); a parameter that is given by reference is left out. A query reads
all the placeholders of its path if it has any parameter (`reads_of_parameters`), and else requests
the path as it is written (`queryAddress_of_nil`). So no placeholder is left and all that is read is
declared, if every placeholder is declared in place (`ofDocument_reads`). A placeholder that only a
reference declares stays in the address, or is read though it is no key of the parameters' schema.

## What is proved

* `parts_of_ofOperation` and `exists_collected` — what an endpoint takes from its operation, its
  path and its document.
* `ofDocument_reads` — for the endpoints of a document that declares every placeholder in place, at
  the path or at the operation: a query asks for its path with each placeholder read from its
  parameters, and each name that it reads is a key of their schema. Of each endpoint of any document
  the exact conditions are given under which it leaves a placeholder, and under which it reads what
  is no key.

## What is assumed

Documents are not asked to declare a placeholder at all. One that nothing declares is the same here
as one that is declared by reference.
-/

namespace TypedClients

namespace OpenApi

/-! ### Declared placeholders -/

/-- The parameter is given in place, under the name. -/
def ParameterItem.InPlace (item : ParameterItem) (name : String) : Prop :=
  ∃ parameter, item = .inline parameter ∧ parameter.name = name

/-- The parameter is given under the name, in place or by a reference into the tree. -/
def ParameterItem.InTree (tree : Json) (item : ParameterItem) (name : String) : Prop :=
  item.InPlace name ∨ ∃ pointer value parameter, item = .ref (String.ofList ('#' :: pointer)) ∧
    tree.pointer? pointer = some value ∧ Parameter.ofJson? value = some parameter ∧
    parameter.name = name

/-- Every placeholder of the path is declared, by a parameter that its operations share or by one of
the operation's own. -/
def PathItem.Declares (declares : ParameterItem → String → Prop) (path : String)
    (item : PathItem) : Prop :=
  ∀ operations, item.operations path = .ok operations →
    ∀ method operation, (method, operation) ∈ operations →
      ∀ name ∈ Endpoint.placeholdersFrom none path.toList,
        ∃ parameter ∈ item.parameters ++ operation.parameters, declares parameter name

/-- Every placeholder of a path is declared by a parameter of the path or of the operation. -/
def PlaceholdersDeclared (declares : ParameterItem → String → Prop) (document : Document) : Prop :=
  ∀ path item, (path, item) ∈ document.paths → item.Declares declares path

theorem PathItem.declares_of_operation {declares : ParameterItem → String → Prop} {path : String}
    {item : PathItem} {method : Method} {operation : Operation}
    (hoperations : item.operations path = .ok [(method, operation)])
    (h : ∀ name ∈ Endpoint.placeholdersFrom none path.toList,
      ∃ parameter ∈ item.parameters ++ operation.parameters, declares parameter name) :
    item.Declares declares path := by
  intro operations hother method' operation' hmem
  cases hoperations.symm.trans hother
  cases List.mem_singleton.mp hmem
  exact h

/-- The names of the parameters that are given in place. -/
def namesInPlace (items : List ParameterItem) : List String :=
  (Endpoint.inlineParameters items).map Parameter.name

theorem mem_namesInPlace {items : List ParameterItem} {name : String} :
    name ∈ namesInPlace items ↔ ∃ item ∈ items, item.InPlace name := by
  rw [namesInPlace, List.mem_map]
  constructor
  · rintro ⟨parameter, hparameter, rfl⟩
    obtain ⟨_ | other, hitem, hsome⟩ := List.mem_filterMap.mp hparameter
    · cases hsome
    · cases hsome
      exact ⟨_, hitem, parameter, rfl, rfl⟩
  · rintro ⟨_, hitem, parameter, rfl, rfl⟩
    exact ⟨parameter, List.mem_filterMap.mpr ⟨_, hitem, rfl⟩, rfl⟩

end OpenApi

namespace Endpoint

/-! ### The parameters of an endpoint -/

variable {entities : List String} {document : OpenApi.Document} {endpoints : List Endpoint}

/-- A list that is merged by name has each name once, in the order of first occurrence. -/
theorem names_mergeParameters (parameters : List EndpointParameter) :
    (mergeParameters parameters).map EndpointParameter.name
      = Keyed.distinct (parameters.map EndpointParameter.name) := by
  have hkeys : ∀ entry ∈ Keyed.ofList (parameters.map fun p => (p.name, p)),
      entry.2.name = entry.1 := by
    intro entry hentry
    obtain ⟨parameter, -, rfl⟩ := List.mem_map.mp (Keyed.mem_of_mem_ofList hentry)
    rfl
  calc (mergeParameters parameters).map EndpointParameter.name
      = Keyed.keys (Keyed.ofList (parameters.map fun p => (p.name, p))) := by
        rw [mergeParameters, List.map_map]
        exact List.map_congr_left hkeys
    _ = Keyed.distinct (parameters.map EndpointParameter.name) := by
        rw [Keyed.keys_ofList, List.map_map]
        rfl

theorem name_of_parameterOf {converter : Converter} {parameter : OpenApi.Parameter}
    {result : EndpointParameter} (h : parameterOf converter parameter = .ok result) :
    parameter.name = result.name := by
  unfold parameterOf at h
  split at h
  · obtain ⟨shape, -, h⟩ := bind_eq_ok.mp h
    cases h
    rfl
  · cases h
    rfl

/-- What an operation's endpoint takes from the operation, its path and its method. -/
theorem parts_of_ofOperation {path : String} {shared : List OpenApi.ParameterItem} {method : Method}
    {operation : OpenApi.Operation} {endpoint : Endpoint}
    (h : ofOperation entities path shared method operation = .ok endpoint) :
    endpoint.path = path ∧ endpoint.method = method ∧
      endpoint.parameters.map EndpointParameter.name
        = Keyed.distinct (OpenApi.namesInPlace (shared ++ operation.parameters)) := by
  obtain ⟨parameters, hparameters, h⟩ := bind_eq_ok.mp h
  obtain ⟨body, -, h⟩ := bind_eq_ok.mp h
  obtain ⟨response, -, h⟩ := bind_eq_ok.mp h
  cases h
  have hnames := map_eq_map_of_forall₂
    ((forall₂_of_mapM hparameters).imp fun _ _ => name_of_parameterOf)
  refine ⟨rfl, rfl, ?_⟩
  rw [names_mergeParameters, OpenApi.namesInPlace, hnames]

/-- The endpoint is that of an operation of the document, at one of its paths. -/
structure Collected (entities : List String) (document : OpenApi.Document) (endpoint : Endpoint)
    (item : OpenApi.PathItem) (operation : OpenApi.Operation) : Prop where
  path : (endpoint.path, item) ∈ document.paths
  listed : ∃ operations, item.operations endpoint.path = .ok operations ∧
    (endpoint.method, operation) ∈ operations
  made : ofOperation entities endpoint.path item.parameters endpoint.method operation = .ok endpoint

/-- Every endpoint of a document is that of an operation. -/
theorem exists_collected (h : ofDocument entities document = .ok endpoints) {endpoint : Endpoint}
    (hendpoint : endpoint ∈ endpoints) :
    ∃ item operation, Collected entities document endpoint item operation := by
  obtain ⟨found, hfound, h⟩ := bind_eq_ok.mp h
  cases h
  obtain ⟨group, hgroup, hendpoint⟩ := List.mem_flatten.mp hendpoint
  obtain ⟨⟨path, item⟩, hpath, hitem⟩ := exists_left (forall₂_of_mapM hfound) hgroup
  obtain ⟨operations, hoperations, hmade⟩ := bind_eq_ok.mp hitem
  obtain ⟨⟨method, operation⟩, hoperation, hmade⟩ :=
    exists_left (forall₂_of_mapM hmade) hendpoint
  obtain ⟨rfl, rfl, -⟩ := parts_of_ofOperation hmade
  exact ⟨item, operation, hpath, ⟨operations, hoperations, hoperation⟩, hmade⟩

end Endpoint

namespace Hook

/-! ### Addresses -/

/-- An address: a path in which names are read, and the parameters of a query string. -/
structure Address where
  template : Template
  query : List String

/-- The names that are read in an address. -/
def Address.names (address : Address) : List String :=
  address.template.names ++ address.query

/-- The address with its names read from a source. -/
def Address.text (address : Address) (source : String) : String :=
  let path := address.template.fill fun name => (hole (Script.propertyAccess source name)).toList
  let pairs := address.query.map (pairText source)
  String.ofList path ++ if address.query = [] then "" else "?" ++ "&".intercalate pairs

/-- The plan's query asks for its path with every placeholder read from the source, and with a query
string of the other parameters. -/
structure Reads (plan : Plan) (source : String) (address : Address) : Prop where
  path : address.template.path = plan.endpoint.path.toList
  query : address.query = (plan.endpoint.parameters.map EndpointParameter.name).filter
    fun name => !address.template.names.contains name
  text : queryAddress plan = address.text source

/-- No placeholder is left in the address of the query. -/
def Substituted (plan : Plan) : Prop :=
  ∃ source address, Reads plan source address

/-- What the query reads from its parameters are keys of their schema. -/
def ReadsDeclared (plan : Plan) : Prop :=
  ∀ params, plan.paramsType = some params → ∃ address properties required,
    Reads plan (querySource params) address ∧
      ⟨params, .object properties required none⟩ ∈ plan.declarations ∧
      ∀ name ∈ address.names, name ∈ Keyed.keys properties

variable {source : String} {endpoint : Endpoint}

theorem length_le_hole (name : String) :
    name.toList.length + 3 ≤ (hole (Script.propertyAccess source name)).toList.length := by
  have hquote := length_le_quote name
  have hopen : "$\x7b".toList.length = 2 := rfl
  have hclose : "\x7d".toList.length = 1 := rfl
  rw [hole, String.toList_append, String.toList_append, List.length_append, List.length_append,
    length_propertyAccess]
  split <;> omega

/-- A read is longer than the placeholder that it stands for. -/
theorem length_fill (template : Template) :
    template.path.length + template.names.length
      ≤ (template.fill fun name => (hole (Script.propertyAccess source name)).toList).length := by
  induction template with
  | last text bare => exact Nat.le_refl _
  | hole text name opened closed next ih =>
    have hread := @length_le_hole source (String.ofList name)
    rw [String.toList_ofList] at hread
    simp only [Template.path_hole, Template.names, Template.fill, List.length_append,
      List.length_cons]
    omega

theorem paramsType_outline_of_nil (h : endpoint.parameters = []) :
    (Plan.outline endpoint).paramsType = none := by
  rw [Plan.outline, h]
  rfl

/-- A query without parameters requests its path as it is written. -/
theorem queryAddress_of_nil (h : endpoint.parameters = []) :
    queryAddress (Plan.outline endpoint) = endpoint.path := by
  rw [queryAddress, paramsType_outline_of_nil h]
  rfl

theorem placeholders_eq_names {template : Template} (hpath : template.path = endpoint.path.toList) :
    endpoint.placeholders = template.names := by
  rw [Endpoint.placeholders, ← hpath, Template.placeholdersFrom_path]

/-- The address that an endpoint with the path of a template asks for. -/
def addressOf (endpoint : Endpoint) (template : Template) : Address where
  template := template
  query := (endpoint.parameters.map EndpointParameter.name).filter
    fun name => !template.names.contains name

/-- The address that a query asks for, written with reads from the source. -/
theorem queryUrl_eq_text (source : String) {template : Template}
    (hpath : template.path = endpoint.path.toList) :
    queryUrl endpoint source = (addressOf endpoint template).text source := by
  have hpairs : queryPairs endpoint source
      = (addressOf endpoint template).query.map (pairText source) := by
    rw [queryPairs_eq, placeholders_eq_names hpath]
    rfl
  refine (queryUrl_eq _ _).trans ?_
  rw [hpairs, fillPath, Text.lift, ← hpath, fillFrom_path]
  simp only [List.map_eq_nil_iff]
  rfl

theorem reads_of_parameters (h : endpoint.parameters ≠ []) {template : Template}
    (hpath : template.path = endpoint.path.toList) :
    Reads (Plan.outline endpoint) (querySource (endpoint.name.versioned ++ "Params"))
      (addressOf endpoint template) where
  path := hpath
  query := rfl
  text := by
    rw [queryAddress_of_params (paramsType_outline h)]
    exact queryUrl_eq_text _ hpath

theorem reads_of_bare (h : endpoint.parameters = []) {template : Template}
    (hpath : template.path = endpoint.path.toList) (hnames : template.names = []) :
    Reads (Plan.outline endpoint) source (addressOf endpoint template) where
  path := hpath
  query := rfl
  text := by
    have hquery : (addressOf endpoint template).query = [] := by
      rw [addressOf, h]
      rfl
    have hbare : Bare endpoint.path.toList := by
      rw [← hpath]
      exact bare_of_placeholders_eq_nil (by rw [Template.placeholdersFrom_path, hnames])
    rw [queryAddress_of_nil h, Address.text, if_pos hquery, String.append_empty, addressOf,
      ← fillFrom_path, hpath, fillFrom_bare hbare, String.ofList_toList]

/-- An address in which a placeholder is read is not the path as it is written. -/
theorem placeholders_eq_nil_of_reads (h : endpoint.parameters = []) {address : Address}
    (hreads : Reads (Plan.outline endpoint) source address) : endpoint.placeholders = [] := by
  have htext := congrArg (List.length ∘ String.toList) hreads.text
  have hlength := @length_fill source address.template
  have hpath : address.template.path = endpoint.path.toList := hreads.path
  simp only [Function.comp_apply, queryAddress_of_nil h, Address.text, String.toList_append,
    String.toList_ofList, List.length_append] at htext
  rw [placeholders_eq_names hpath, ← List.length_eq_zero_iff]
  rw [hpath] at hlength
  omega

/-- A placeholder is left if there is one and the endpoint has no parameters. -/
theorem substituted_outline_iff : Substituted (Plan.outline endpoint)
    ↔ endpoint.placeholders = [] ∨ endpoint.parameters ≠ [] := by
  obtain ⟨template, hpath⟩ := Template.exists_path_eq endpoint.path.toList
  by_cases h : endpoint.parameters = []
  · refine ⟨fun ⟨_, _, hreads⟩ => .inl (placeholders_eq_nil_of_reads h hreads), ?_⟩
    rintro (hnone | hsome)
    · rw [placeholders_eq_names hpath] at hnone
      exact ⟨"", _, reads_of_bare h hpath hnone⟩
    · exact absurd h hsome
  · exact iff_of_true ⟨_, _, reads_of_parameters h hpath⟩ (.inr h)

theorem mem_declarations_iff {shape : Node} :
    ⟨endpoint.name.versioned ++ "Params", shape⟩ ∈ (Plan.outline endpoint).declarations
      ↔ endpoint.parameters ≠ [] ∧ shape = Plan.paramsShape endpoint.parameters := by
  have hother : ∀ (ending : String) (node : Option Node), "Params" ≠ ending →
      ⟨endpoint.name.versioned ++ "Params", shape⟩
        ∉ Plan.declarationsFor (endpoint.name.versioned ++ ending) node := by
    intro ending node hne hmem
    unfold Plan.declarationsFor at hmem
    split at hmem
    · cases hmem
    · cases hmem
    · rw [List.mem_singleton, Declaration.mk.injEq, String.append_right_inj] at hmem
      exact hne hmem.1
  show _ ∈ endpoint.declarations ↔ _
  rw [Endpoint.declarations, List.mem_append, List.mem_append,
    or_iff_left (hother "Resp" _ (by decide)), or_iff_left (hother "Body" _ (by decide)),
    Plan.paramsShape?]
  by_cases h : endpoint.parameters = []
  · rw [if_pos (by rw [h]; rfl)]
    exact iff_of_false List.not_mem_nil fun hsome => hsome.1 h
  · rw [if_neg (by simpa using h)]
    show _ ∈ [_] ↔ _
    rw [List.mem_singleton, Declaration.mk.injEq]
    exact ⟨fun hmem => ⟨h, hmem.2⟩, fun hmem => ⟨rfl, hmem.2⟩⟩

/-- The keys of the parameters' schema are the names of the parameters. -/
theorem mem_keys_properties {parameters : List EndpointParameter} {name : String} :
    name ∈ Keyed.keys (Keyed.ofList (parameters.map fun p => (p.name, p.shape)))
      ↔ name ∈ parameters.map EndpointParameter.name := by
  rw [Keyed.keys_ofList, Keyed.mem_distinct, List.map_map]
  rfl

/-- A query reads what is not declared if it has parameters, and not all of the placeholders are
among them. -/
theorem readsDeclared_outline_iff : ReadsDeclared (Plan.outline endpoint)
    ↔ endpoint.parameters = [] ∨
      ∀ name ∈ endpoint.placeholders, name ∈ endpoint.parameters.map EndpointParameter.name := by
  obtain ⟨template, hpath⟩ := Template.exists_path_eq endpoint.path.toList
  by_cases h : endpoint.parameters = []
  · refine iff_of_true (fun params hparams => ?_) (.inl h)
    rw [paramsType_outline_of_nil h] at hparams
    cases hparams
  · rw [or_iff_right h, placeholders_eq_names hpath]
    constructor
    · intro hdeclared name hname
      obtain ⟨address, properties, required, hreads, hmem, hkeys⟩ :=
        hdeclared _ (paramsType_outline h)
      obtain ⟨-, hshape⟩ := mem_declarations_iff.mp hmem
      obtain ⟨rfl, -⟩ := Node.object.inj hshape
      have hname := hkeys name (List.mem_append_left _
        ((Template.path_inj (hreads.path.trans hpath.symm)).symm ▸ hname))
      exact mem_keys_properties.mp hname
    · intro hnames params hparams
      rw [paramsType_outline h, Option.some_inj] at hparams
      subst hparams
      refine ⟨_, _, _, reads_of_parameters h hpath, mem_declarations_iff.mpr ⟨h, rfl⟩, ?_⟩
      intro name hname
      rw [mem_keys_properties]
      rcases List.mem_append.mp hname with hname | hname
      · exact hnames name hname
      · exact List.mem_of_mem_filter hname

/-! ### The queries of a document -/

/-- A query is planned from the parameters that are given in place. -/
theorem outline_of_collected {entities : List String} {document : OpenApi.Document}
    {item : OpenApi.PathItem} {operation : OpenApi.Operation}
    (h : Endpoint.Collected entities document endpoint item operation) {names : List String}
    (hnames : names = OpenApi.namesInPlace (item.parameters ++ operation.parameters)) :
    (Substituted (Plan.outline endpoint) ↔ endpoint.placeholders = [] ∨ names ≠ []) ∧
      (ReadsDeclared (Plan.outline endpoint)
        ↔ names = [] ∨ ∀ name ∈ endpoint.placeholders, name ∈ names) := by
  obtain ⟨-, -, hparameters⟩ := Endpoint.parts_of_ofOperation h.made
  rw [← hnames] at hparameters
  have hmem : ∀ name, name ∈ endpoint.parameters.map EndpointParameter.name ↔ name ∈ names := by
    intro name
    rw [hparameters, Keyed.mem_distinct]
  have hnil : endpoint.parameters = [] ↔ names = [] := by
    rw [← List.map_eq_nil_iff (f := EndpointParameter.name), List.eq_nil_iff_forall_not_mem,
      List.eq_nil_iff_forall_not_mem]
    exact forall_congr' fun name => not_congr (hmem name)
  rw [substituted_outline_iff, readsDeclared_outline_iff, Ne, hnil]
  exact ⟨Iff.rfl, or_congr_right (forall₂_congr fun name _ => hmem name)⟩

/-- In a document that declares all its placeholders in place, the hook of a query asks for its path
with every placeholder read, and reads nothing but keys of the schema of its parameters. Taken by
itself, a query leaves a placeholder if its path has one and no parameter is given in place, and it
reads what is no key if some are, and a placeholder is not among them. -/
theorem ofDocument_reads {entities : List String} {document : OpenApi.Document}
    {endpoints : List Endpoint}
    (collected : Endpoint.ofDocument entities document = .ok endpoints) :
    (OpenApi.PlaceholdersDeclared OpenApi.ParameterItem.InPlace document →
      ∀ endpoint ∈ endpoints, endpoint.method.isQuery = true → ∀ taken plan,
        ((Plan.ofEndpoint endpoint).run.run taken).1 = .ok plan →
          (∃ before after, Hook.source plan = before ++ addressLine plan ++ after) ∧
            Substituted plan ∧ ReadsDeclared plan) ∧
    ∀ endpoint ∈ endpoints, ∃ item operation,
      Endpoint.Collected entities document endpoint item operation ∧ ∀ taken plan,
        ((Plan.ofEndpoint endpoint).run.run taken).1 = .ok plan →
          (Substituted plan ↔ endpoint.placeholders = [] ∨
            OpenApi.namesInPlace (item.parameters ++ operation.parameters) ≠ []) ∧
          (ReadsDeclared plan ↔
            OpenApi.namesInPlace (item.parameters ++ operation.parameters) = [] ∨
              ∀ name ∈ endpoint.placeholders,
                name ∈ OpenApi.namesInPlace (item.parameters ++ operation.parameters)) := by
  constructor
  · intro hdeclared endpoint hendpoint hquery taken plan hplan
    obtain ⟨-, rfl⟩ := Plan.ofEndpoint_eq_ok_iff.mp hplan
    obtain ⟨item, operation, hcollected⟩ := Endpoint.exists_collected collected hendpoint
    obtain ⟨operations, hoperations, hoperation⟩ := hcollected.listed
    have hnames : ∀ name ∈ endpoint.placeholders,
        name ∈ OpenApi.namesInPlace (item.parameters ++ operation.parameters) := fun name hname =>
      OpenApi.mem_namesInPlace.mpr
        (hdeclared _ _ hcollected.path _ hoperations _ _ hoperation name hname)
    obtain ⟨hsubstituted, hreads⟩ := outline_of_collected hcollected rfl
    obtain ⟨before, between, after, hsource⟩ := @source_eq_of_isQuery (Plan.outline endpoint) hquery
    refine ⟨⟨_, after, hsource⟩, hsubstituted.mpr ?_, hreads.mpr (.inr hnames)⟩
    by_cases hnone : endpoint.placeholders = []
    · exact .inl hnone
    · obtain ⟨name, hname⟩ := List.exists_mem_of_ne_nil _ hnone
      exact .inr (List.ne_nil_of_mem (hnames name hname))
  · intro endpoint hendpoint
    obtain ⟨item, operation, hcollected⟩ := Endpoint.exists_collected collected hendpoint
    refine ⟨item, operation, hcollected, fun taken plan hplan => ?_⟩
    obtain ⟨-, rfl⟩ := Plan.ofEndpoint_eq_ok_iff.mp hplan
    exact outline_of_collected hcollected rfl

/-- A parameter with a name. -/
def parameterTree (name location : String) : Json :=
  .object [("name", .string name), ("in", .string location)]

/-- A reference to the id that the components hold. -/
def idReference : Json :=
  .object [("$ref", .string "#/components/parameters/Id")]

/-- A query with parameters. -/
def queryTree (id : String) (parameters : List Json) : Json :=
  .object [("get", .object [("operationId", .string id), ("parameters", .array parameters)])]

/-- A document with an id in its components. -/
def idDocument (paths : List (String × Json)) : Json :=
  .object [("openapi", .string "3.1.0"), ("info", .object [("title", .string "Pets")]),
    ("components", .object [("parameters", .object [("Id", parameterTree "id" "path")])]),
    ("paths", .object paths)]

/-- A query that gives its id in place, and another query. -/
def inPlace : Json :=
  idDocument [("/pets/\x7bid\x7d", queryTree "getPet"
    [parameterTree "id" "path", parameterTree "limit" "query"]), ("/pets", queryTree "getPets" [])]

theorem ofDocument_reads_inPlace : ∃ document pet pets,
    OpenApi.Document.ofJson inPlace = .ok document ∧
      Endpoint.ofDocument [] document = .ok [pet, pets] ∧
      OpenApi.PlaceholdersDeclared OpenApi.ParameterItem.InPlace document ∧
      queryAddress (Plan.outline pet)
        = "/pets/$\x7b(queryKey[1] as GetPetParams).id\x7d"
          ++ "?limit=$\x7b(queryKey[1] as GetPetParams).limit\x7d" ∧
      Substituted (Plan.outline pet) ∧ ReadsDeclared (Plan.outline pet) := by
  have hdeclared : ∀ document, OpenApi.Document.ofJson inPlace = .ok document →
      OpenApi.PlaceholdersDeclared OpenApi.ParameterItem.InPlace document := by
    rintro _ ⟨⟩ path item hpath
    rcases List.mem_cons.mp hpath with hpath | hpath
    · cases hpath
      refine OpenApi.PathItem.declares_of_operation rfl ?_
      exact List.forall_mem_singleton.mpr ⟨_, List.mem_cons_self, _, rfl, rfl⟩
    · cases List.mem_singleton.mp hpath
      exact OpenApi.PathItem.declares_of_operation rfl fun _ hname => absurd hname List.not_mem_nil
  refine ⟨_, _, _, rfl, rfl, hdeclared _ rfl, by decide, ?_⟩
  exact ((@ofDocument_reads [] _ _ rfl).1 (hdeclared _ rfl) _ List.mem_cons_self rfl []
    (Plan.outline _) rfl).2

/-- Two queries that refer to their id, one of them with a limit. -/
def referring : Json :=
  idDocument [("/pets/\x7bid\x7d", queryTree "getPet" [idReference]),
    ("/owners/\x7bid\x7d", queryTree "getOwner" [idReference, parameterTree "limit" "query"])]

/-- Every placeholder is declared, by reference. Without a parameter in place the placeholder stays
in the address; with one it is read, but the schema of the parameters does not have it. -/
theorem ofDocument_referring : ∃ document pet owner,
    OpenApi.Document.ofJson referring = .ok document ∧
      Endpoint.ofDocument [] document = .ok [pet, owner] ∧
      OpenApi.PlaceholdersDeclared (OpenApi.ParameterItem.InTree referring) document ∧
      ((Plan.ofEndpoints [pet, owner]).run.run []).1
        = .ok [Plan.outline pet, Plan.outline owner] ∧
      queryAddress (Plan.outline pet) = "/pets/\x7bid\x7d" ∧ ¬ Substituted (Plan.outline pet) ∧
      queryAddress (Plan.outline owner) = "/owners/$\x7b(queryKey[1] as GetOwnerParams).id\x7d"
        ++ "?limit=$\x7b(queryKey[1] as GetOwnerParams).limit\x7d" ∧
      owner.parameters.map EndpointParameter.name = ["limit"] ∧
      ¬ ReadsDeclared (Plan.outline owner) := by
  have hdeclared : ∀ document, OpenApi.Document.ofJson referring = .ok document →
      OpenApi.PlaceholdersDeclared (OpenApi.ParameterItem.InTree referring) document := by
    have hid : OpenApi.ParameterItem.InTree referring (.ref "#/components/parameters/Id") "id" :=
      .inr ⟨"/components/parameters/Id".toList, _, _, rfl, rfl, rfl, rfl⟩
    rintro _ ⟨⟩ path item hpath
    rcases List.mem_cons.mp hpath with hpath | hpath
    · cases hpath
      refine OpenApi.PathItem.declares_of_operation rfl ?_
      exact List.forall_mem_singleton.mpr ⟨_, List.mem_cons_self, hid⟩
    · cases List.mem_singleton.mp hpath
      refine OpenApi.PathItem.declares_of_operation rfl ?_
      exact List.forall_mem_singleton.mpr ⟨_, List.mem_cons_self, hid⟩
  refine ⟨_, _, _, rfl, rfl, hdeclared _ rfl, rfl, by decide, ?_, by decide, rfl, ?_⟩
  · rw [substituted_outline_iff]
    decide
  · rw [readsDeclared_outline_iff]
    decide

end Hook

end TypedClients
