import TypedClients.Proofs.Endpoint.Collection
import TypedClients.Proofs.Hook.Parameters
import TypedClients.Proofs.Node.Pieces

/-!
# Merged parameters

The parameters of a path and those of its operation are merged by name. Of the parameters that are
given in place under one name the last counts, where the first stood, and what is given by reference
counts nowhere (`Endpoint.Merges`). After that no name is repeated, so nothing is merged again when
the parameters become the properties of an object, and the required names are just those of the
required parameters (`Plan.paramsShape_eq`): the object has a property for each parameter, in their
order, and the property is optional exactly if the parameter is not required.

## What is proved

`Endpoint.merges_parameters` says this of a whole document.

* It has endpoints exactly if all its operations can be read and all their schemas convert.
* Then each operation has one, in order. Its parameters are those of its path and its own, merged;
  and what is planned of it declares them so (`Endpoint.MergedAt`).
* A document without its references to parameters has the same endpoints.

Where a parameter is sent does not count: parameters of one name are merged even if one is in the
path and the other in the query.
-/

namespace TypedClients

namespace OpenApi

/-- The shape of the parameter: that of its schema, or anything if it has none. -/
def Parameter.HasShape (converter : Converter) (parameter : Parameter) (shape : Node) : Prop :=
  match parameter.schema with
  | some schema => converter.node schema = .ok shape
  | none => shape = .prim .unknown

/-- The parameter is given in place, not by a reference. -/
def ParameterItem.isInline : ParameterItem → Bool
  | .ref _ => false
  | .inline _ => true

/-- The operation without the parameters that it refers to. -/
def Operation.inPlace (operation : Operation) : Operation :=
  { operation with parameters := operation.parameters.filter ParameterItem.isInline }

/-- The other place is this one, but for its references to parameters. -/
structure Site.WithoutReferences (site other : Site) : Prop where
  path : other.path = site.path
  shared : other.shared = site.shared.filter ParameterItem.isInline
  method : other.method = site.method
  operation : Operation.ofJson? other.tree = (Operation.ofJson? site.tree).map Operation.inPlace

end OpenApi

namespace Endpoint

variable {converter : Converter} {given : List OpenApi.Parameter}
  {found parameters : List EndpointParameter}

/-! ### Parameters given in place -/

theorem parameterOf_eq_ok_iff {parameter : OpenApi.Parameter} {result : EndpointParameter} :
    parameterOf converter parameter = .ok result
      ↔ ∃ shape, parameter.HasShape converter shape ∧
          result = ⟨parameter.name, shape, parameter.required⟩ := by
  obtain ⟨name, location, required, schema⟩ := parameter
  cases schema with
  | none =>
    constructor
    · intro h
      cases h
      exact ⟨_, rfl, rfl⟩
    · rintro ⟨_, rfl, rfl⟩
      rfl
  | some schema =>
    constructor
    · intro h
      obtain ⟨shape, hshape, h⟩ := bind_eq_ok.mp h
      cases h
      exact ⟨shape, hshape, rfl⟩
    · rintro ⟨shape, hshape, rfl⟩
      exact bind_eq_ok.mpr ⟨shape, hshape, rfl⟩

/-- Parameters that all have shapes are found. -/
theorem exists_mapM_parameterOf
    (h : ∀ parameter ∈ given, ∃ shape, parameter.HasShape converter shape) :
    ∃ found, given.mapM (parameterOf converter) = .ok found := by
  induction given with
  | nil => exact ⟨[], rfl⟩
  | cons parameter given ih =>
    rw [List.forall_mem_cons] at h
    obtain ⟨⟨shape, hshape⟩, hrest⟩ := h
    obtain ⟨found, hfound⟩ := ih hrest
    have hfirst := parameterOf_eq_ok_iff.mpr ⟨shape, hshape, rfl⟩
    refine ⟨⟨parameter.name, shape, parameter.required⟩ :: found, ?_⟩
    rw [List.mapM_cons, hfirst, hfound]
    rfl

theorem inlineParameters_filter (items : List OpenApi.ParameterItem) :
    inlineParameters (items.filter OpenApi.ParameterItem.isInline) = inlineParameters items := by
  rw [inlineParameters, inlineParameters, List.filterMap_filter]
  refine List.filterMap_congr fun item _ => ?_
  cases item <;> rfl

/-- Leaving out the references leaves the endpoint as it is. -/
theorem ofOperation_inPlace (entities : List String) (path : String)
    (shared : List OpenApi.ParameterItem) (method : Method) (operation : OpenApi.Operation) :
    ofOperation entities path (shared.filter OpenApi.ParameterItem.isInline) method
        operation.inPlace
      = ofOperation entities path shared method operation := by
  have hgiven : inlineParameters (shared.filter OpenApi.ParameterItem.isInline
      ++ operation.parameters.filter OpenApi.ParameterItem.isInline)
        = inlineParameters (shared ++ operation.parameters) := by
    rw [← List.filter_append, inlineParameters_filter]
  simp only [ofOperation, OpenApi.Operation.inPlace, hgiven]
  rfl

/-! ### Merging -/

/-- The parameters are those that are given, merged by name. -/
structure Merges (converter : Converter) (given : List OpenApi.Parameter)
    (parameters : List EndpointParameter) : Prop where
  /-- The names are those that are given, each once, in the order in which they are first given. -/
  order : Keyed.FirstMet (given.map OpenApi.Parameter.name)
    (parameters.map EndpointParameter.name)
  /-- Each parameter is as it is given last. -/
  last : ∀ p ∈ parameters, ∃ earlier parameter later, given = earlier ++ parameter :: later ∧
    parameter.name = p.name ∧ (∀ other ∈ later, other.name ≠ p.name) ∧
    parameter.HasShape converter p.shape ∧ p.required = parameter.required

/-- A merged parameter is the last one of its name. -/
theorem exists_last_of_mem_mergeParameters {p : EndpointParameter} (h : p ∈ mergeParameters found) :
    ∃ earlier later, found = earlier ++ p :: later ∧ ∀ other ∈ later, other.name ≠ p.name := by
  obtain ⟨entry, hentry, rfl⟩ := List.mem_map.mp h
  obtain ⟨earlier, later, hpairs, hlater⟩ := Keyed.exists_last_of_mem_ofList hentry
  obtain ⟨before, rest, rfl, rfl, hrest⟩ := List.map_eq_append_iff.mp hpairs
  obtain ⟨p, after, rfl, rfl, rfl⟩ := List.map_eq_cons_iff.mp hrest
  exact ⟨before, after, rfl, fun other hother => hlater _ (List.mem_map_of_mem hother)⟩

theorem merges_mergeParameters (h : given.mapM (parameterOf converter) = .ok found) :
    Merges converter given (mergeParameters found) where
  order := by
    have hnames := map_eq_map_of_forall₂
      ((forall₂_of_mapM h).imp fun _ _ => name_of_parameterOf)
    rw [names_mergeParameters, hnames]
    exact Keyed.firstMet_distinct _
  last p hp := by
    obtain ⟨earlier, later, rfl, hlater⟩ := exists_last_of_mem_mergeParameters hp
    obtain ⟨before, parameter, after, rfl, hparameter, hafter⟩ :=
      exists_append_of_forall₂ (forall₂_of_mapM h)
    obtain ⟨shape, hshape, rfl⟩ := parameterOf_eq_ok_iff.mp hparameter
    refine ⟨before, parameter, after, rfl, rfl, fun other hother => ?_, hshape, rfl⟩
    obtain ⟨q, hq, hother⟩ := exists_right hafter hother
    rw [name_of_parameterOf hother]
    exact hlater q hq

end Endpoint

namespace Plan

variable {parameters : List EndpointParameter}

/-! ### The object of the parameters -/

/-- Where names are not repeated, the object has a property for each parameter. -/
theorem paramsShape_eq (h : (parameters.map EndpointParameter.name).Nodup) :
    paramsShape parameters = .object (parameters.map fun p => (p.name, p.shape))
      ((parameters.filter EndpointParameter.required).map EndpointParameter.name) none := by
  have hkeys : (Keyed.keys (parameters.map fun p => (p.name, p.shape))).Nodup := by
    rw [Keyed.keys, List.map_map]
    exact h
  rw [paramsShape, Keyed.ofList_eq_self hkeys, Keyed.distinct_eq_self]
  exact h.sublist (List.filter_sublist.map EndpointParameter.name)

theorem mem_required_iff (h : (parameters.map EndpointParameter.name).Nodup)
    {p : EndpointParameter} (hp : p ∈ parameters) :
    p.name ∈ (parameters.filter EndpointParameter.required).map EndpointParameter.name
      ↔ p.required = true := by
  constructor
  · intro hmem
    obtain ⟨q, hq, hname⟩ := List.mem_map.mp hmem
    obtain ⟨hq, hrequired⟩ := List.mem_filter.mp hq
    rwa [← List.inj_on_of_nodup_map h hq hp hname]
  · exact fun hrequired => List.mem_map.mpr ⟨p, List.mem_filter.mpr ⟨hp, hrequired⟩, rfl⟩

/-- The line of a parameter in the validator of the parameters. -/
def parameterLine (p : EndpointParameter) : String :=
  "  " ++ Script.quote p.name ++ ": " ++ p.shape.validator .bare
    ++ (if p.required then "" else ".optional()")

/-- The validator of the parameters has a line for each of them. -/
theorem validator_paramsShape (h : (parameters.map EndpointParameter.name).Nodup)
    (hne : parameters ≠ []) : (paramsShape parameters).validator .bare
      = "z.object(\x7b\n" ++ ",\n".intercalate (parameters.map parameterLine) ++ "\n\x7d)" := by
  have hlines : Node.propertyValidators .bare
      ((parameters.filter EndpointParameter.required).map EndpointParameter.name)
      (parameters.map fun p => (p.name, p.shape)) = parameters.map parameterLine := by
    rw [Node.propertyValidators_eq_map, List.map_map]
    refine List.map_congr_left fun p hp => ?_
    simp only [Function.comp_apply, mem_required_iff h hp, parameterLine]
  rw [paramsShape_eq h]
  obtain ⟨first, others, rfl⟩ := List.exists_cons_of_ne_nil hne
  rw [List.map_cons, Node.validator.eq_def]
  dsimp only
  rw [← hlines, List.map_cons]

end Plan

namespace Endpoint

variable {entities : List String}

/-! ### From the document to the declaration -/

/-- There is an operation at the place, and the schemas of its parameters, its body and its response
convert. -/
def ConvertsAt (entities : List String) (site : OpenApi.Site) : Prop :=
  ∃ operation, OpenApi.Operation.ofJson? site.tree = some operation ∧
    (∀ parameter ∈ inlineParameters (site.shared ++ operation.parameters),
      ∃ shape, parameter.HasShape ⟨entities, .components⟩ shape) ∧
    (∃ body, bodyOf ⟨entities, .components⟩ operation.requestBody = .ok body) ∧
    ∃ response,
      bodyOf ⟨entities, .components⟩ (Keyed.get? successStatus operation.responses) = .ok response

/-- The endpoint has the merged parameters of the operation at the place. Any plan of it declares
their object if there are any: a property for each parameter, in their order, optional exactly if
the parameter is not required. -/
structure MergedAt (entities : List String) (site : OpenApi.Site) (endpoint : Endpoint) : Prop where
  path : endpoint.path = site.path
  method : endpoint.method = site.method
  merges : ∃ operation, OpenApi.Operation.ofJson? site.tree = some operation ∧
    Merges ⟨entities, .components⟩ (inlineParameters (site.shared ++ operation.parameters))
      endpoint.parameters
  nodup : (endpoint.parameters.map EndpointParameter.name).Nodup
  declared : ∀ taken plan, ((Plan.ofEndpoint endpoint).run.run taken).1 = .ok plan →
    ∃ required, (∀ p ∈ endpoint.parameters, p.name ∈ required ↔ p.required = true) ∧
      (∀ shape, ⟨endpoint.name.versioned ++ "Params", shape⟩ ∈ plan.declarations
        ↔ endpoint.parameters ≠ [] ∧
          shape = .object (endpoint.parameters.map fun p => (p.name, p.shape)) required none) ∧
      (endpoint.parameters ≠ [] →
        (Node.object (endpoint.parameters.map fun p => (p.name, p.shape)) required none).validator
            .bare
          = "z.object(\x7b\n" ++ ",\n".intercalate (endpoint.parameters.map Plan.parameterLine)
            ++ "\n\x7d)")

theorem exists_madeAt_iff {site : OpenApi.Site} :
    (∃ endpoint, MadeAt entities site endpoint) ↔ ConvertsAt entities site := by
  constructor
  · rintro ⟨endpoint, operation, hoperation, hmade⟩
    obtain ⟨found, hfound, hmade⟩ := bind_eq_ok.mp hmade
    obtain ⟨body, hbody, hmade⟩ := bind_eq_ok.mp hmade
    obtain ⟨response, hresponse, -⟩ := bind_eq_ok.mp hmade
    refine ⟨operation, hoperation, fun parameter hparameter => ?_, ⟨body, hbody⟩, response, hresponse⟩
    obtain ⟨_, -, hshape⟩ := exists_right (forall₂_of_mapM hfound) hparameter
    obtain ⟨shape, hshape, -⟩ := parameterOf_eq_ok_iff.mp hshape
    exact ⟨shape, hshape⟩
  · rintro ⟨operation, hoperation, hparameters, ⟨body, hbody⟩, response, hresponse⟩
    obtain ⟨found, hfound⟩ := exists_mapM_parameterOf hparameters
    exact ⟨_, operation, hoperation, bind_eq_ok.mpr ⟨found, hfound, bind_eq_ok.mpr ⟨body, hbody,
      bind_eq_ok.mpr ⟨response, hresponse, rfl⟩⟩⟩⟩

theorem mergedAt_of_madeAt {site : OpenApi.Site} {endpoint : Endpoint}
    (h : MadeAt entities site endpoint) : MergedAt entities site endpoint := by
  obtain ⟨operation, hoperation, hmade⟩ := h
  obtain ⟨hpath, hmethod, -⟩ := parts_of_ofOperation hmade
  obtain ⟨found, hfound, hmade⟩ := bind_eq_ok.mp hmade
  have hparameters : endpoint.parameters = mergeParameters found := by
    obtain ⟨body, -, hmade⟩ := bind_eq_ok.mp hmade
    obtain ⟨response, -, hmade⟩ := bind_eq_ok.mp hmade
    cases hmade
    rfl
  have hmerges := merges_mergeParameters hfound
  rw [← hparameters] at hmerges
  have hnodup := hmerges.order.nodup
  refine ⟨hpath, hmethod, ⟨operation, hoperation, hmerges⟩, hnodup, fun taken plan hplan => ?_⟩
  obtain ⟨-, rfl⟩ := Plan.ofEndpoint_eq_ok_iff.mp hplan
  refine ⟨_, fun p hp => Plan.mem_required_iff hnodup hp, fun shape => ?_, fun hne => ?_⟩
  · rw [Hook.mem_declarations_iff, Plan.paramsShape_eq hnodup]
  · rw [← Plan.paramsShape_eq hnodup, Plan.validator_paramsShape hnodup hne]

/-- The same endpoint is made without the references. -/
theorem madeAt_iff_of_withoutReferences {site other : OpenApi.Site}
    (h : site.WithoutReferences other) (endpoint : Endpoint) :
    MadeAt entities other endpoint ↔ MadeAt entities site endpoint := by
  unfold MadeAt
  rw [h.path, h.shared, h.method, h.operation]
  constructor
  · rintro ⟨_, hinPlace, hmade⟩
    obtain ⟨operation, hoperation, rfl⟩ := Option.map_eq_some_iff.mp hinPlace
    rw [ofOperation_inPlace] at hmade
    exact ⟨operation, hoperation, hmade⟩
  · rintro ⟨operation, hoperation, hmade⟩
    rw [← ofOperation_inPlace] at hmade
    exact ⟨operation.inPlace, by rw [hoperation]; rfl, hmade⟩

/-- A document has endpoints exactly if its operations are operations whose schemas convert. Then it
has one for each, in their order, with the parameters of the path and the operation merged by name,
and declared so. References to parameters make no difference. -/
theorem merges_parameters (entities : List String) (document : OpenApi.Document) :
    ((∃ endpoints, ofDocument entities document = .ok endpoints) ↔
        ∀ site ∈ document.sites, ConvertsAt entities site) ∧
      (∀ endpoints, ofDocument entities document = .ok endpoints →
        List.Forall₂ (MergedAt entities) document.sites endpoints) ∧
      ∀ other : OpenApi.Document,
        List.Forall₂ OpenApi.Site.WithoutReferences document.sites other.sites →
          ∀ endpoints, ofDocument entities other = .ok endpoints
            ↔ ofDocument entities document = .ok endpoints := by
  simp only [ofDocument_eq_ok_iff]
  refine ⟨?_, fun endpoints h => h.imp fun _ _ => mergedAt_of_madeAt, fun other h endpoints => ?_⟩
  · simp only [exists_forall₂_iff, exists_madeAt_iff]
  · exact (forall₂_iff_of_forall₂ h fun site other h endpoint =>
      (madeAt_iff_of_withoutReferences h endpoint).symm).symm

end Endpoint

namespace Endpoint

/-- The parameters of the path of an owner's pets. -/
def ownerItems : List OpenApi.ParameterItem :=
  [.inline ⟨"limit", .query, false, none⟩, .ref "#/components/parameters/Page",
    .inline ⟨"owner", .path, true, none⟩]

/-- The parameters of an operation, which sets one of them anew. -/
def kindAndLimit : List Json :=
  [.object [("name", .string "kind"), ("in", .string "query"),
      ("schema", .object [("type", .string "string")])],
    .object [("name", .string "limit"), ("in", .string "query"), ("required", .bool true),
      ("schema", .object [("type", .string "number")])]]

/-- A document with one operation. -/
def ownersPets (shared : List OpenApi.ParameterItem) (parameters : List Json) : OpenApi.Document :=
  ⟨"3.1.0", "Pets", [("/owners/\x7bowner\x7d/pets", ⟨shared, [("get", .object
    [("operationId", .string "listPets"), ("parameters", .array parameters)])]⟩)]⟩

theorem merges_parameters_listPets : ∃ endpoint,
    ofDocument [] (ownersPets ownerItems (Hook.idReference :: kindAndLimit)) = .ok [endpoint] ∧
      ofDocument [] (ownersPets (ownerItems.filter OpenApi.ParameterItem.isInline) kindAndLimit)
        = .ok [endpoint] ∧
      endpoint.parameters = [⟨"limit", .prim .number, true⟩, ⟨"owner", .prim .unknown, true⟩,
        ⟨"kind", .prim .string, false⟩] ∧
      (endpoint.parameters.map EndpointParameter.name).Nodup := by
  obtain ⟨-, hmerged, hreferences⟩ :=
    merges_parameters [] (ownersPets ownerItems (Hook.idReference :: kindAndLimit))
  obtain ⟨hmerges, -⟩ := List.forall₂_cons.mp (hmerged _ rfl)
  exact ⟨_, rfl, (hreferences _ (.cons ⟨rfl, rfl, rfl, rfl⟩ .nil) _).mpr rfl, rfl, hmerges.nodup⟩

end Endpoint

end TypedClients
