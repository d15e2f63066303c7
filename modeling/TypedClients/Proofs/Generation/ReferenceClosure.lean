import TypedClients.Generation
import TypedClients.Proofs.Conversion.References
import TypedClients.Proofs.Keyed

/-!
# The entity module declares what the modules refer to

Where the entity module can be generated, the names of the entity files are distinct identifiers
that can be declared, and every reference in an entity, in an endpoint and in the payload of a
channel is one of them. The names are those of the files, so this does not depend on the order in
which the modules are generated.

## What is proved

`entityModule_referenceClosed` — where the entity files load:

* the error about a duplicate is given exactly if two stems come to one name, and there is no other;
* otherwise the module is generated, its names are identifiers that are not reserved, and no two of
  them are the same;
* every reference in an entity, in the endpoints of a document that is accepted, and in the payloads
  of its channels is one of these names.

## What is not here

That the other modules import the names that they use. That is a matter of their texts.
-/

namespace TypedClients

/-! ### Endpoints and channels -/

/-- The shapes of the parameters, the body and the response. -/
def Endpoint.shapes (endpoint : Endpoint) : List Node :=
  endpoint.parameters.map EndpointParameter.shape ++ endpoint.body.toList
    ++ endpoint.response.toList

/-- The payloads of a channel. -/
def Socket.Channel.payloads (channel : Socket.Channel) : List Node :=
  (channel.receive.bind Socket.Side.payload).toList
    ++ (channel.send.bind Socket.Side.payload).toList

variable {names : List String}

namespace Endpoint

theorem refersTo_of_parameterOf {c : Converter} {parameter : OpenApi.Parameter}
    {result : EndpointParameter} (h : parameterOf c parameter = .ok result) :
    result.shape.RefersTo c.entities := by
  unfold parameterOf at h
  split at h
  · obtain ⟨shape, hshape, h⟩ := bind_eq_ok.mp h
    cases h
    exact refersTo_of_node hshape
  · cases h
    exact refersTo_of_mentions_eq_nil rfl

theorem refersTo_of_bodyOf {c : Converter} {body : Option OpenApi.Body} {node : Node}
    (h : bodyOf c body = .ok (some node)) : node.RefersTo c.entities := by
  unfold bodyOf at h
  split at h
  · cases h
  · obtain ⟨shape, hshape, h⟩ := map_eq_ok.mp h
    cases h
    exact refersTo_of_node hshape

theorem mem_of_mem_mergeParameters {parameters : List EndpointParameter}
    {parameter : EndpointParameter} (h : parameter ∈ mergeParameters parameters) :
    parameter ∈ parameters := by
  obtain ⟨entry, hentry, rfl⟩ := List.mem_map.mp h
  obtain ⟨parameter, hparameter, rfl⟩ := List.mem_map.mp (Keyed.mem_of_mem_ofList hentry)
  exact hparameter

theorem refersTo_of_ofOperation {path : String} {shared : List OpenApi.ParameterItem}
    {method : Method} {operation : OpenApi.Operation} {endpoint : Endpoint}
    (h : ofOperation names path shared method operation = .ok endpoint) :
    ∀ node ∈ endpoint.shapes, node.RefersTo names := by
  obtain ⟨parameters, hparameters, h⟩ := bind_eq_ok.mp h
  obtain ⟨body, hbody, h⟩ := bind_eq_ok.mp h
  obtain ⟨response, hresponse, h⟩ := bind_eq_ok.mp h
  cases h
  intro node hnode
  simp only [shapes, List.mem_append, List.mem_map, Option.mem_toList] at hnode
  rcases hnode with (⟨parameter, hparameter, rfl⟩ | hnode) | hnode
  · obtain ⟨_, _, hp⟩ :=
      exists_left (forall₂_of_mapM hparameters) (mem_of_mem_mergeParameters hparameter)
    exact refersTo_of_parameterOf hp
  · exact refersTo_of_bodyOf (hnode ▸ hbody)
  · exact refersTo_of_bodyOf (hnode ▸ hresponse)

/-- The endpoints of a document refer to the entities that the document is read with. -/
theorem refersTo_of_ofDocument {document : OpenApi.Document} {endpoints : List Endpoint}
    (h : ofDocument names document = .ok endpoints) :
    ∀ endpoint ∈ endpoints, ∀ node ∈ endpoint.shapes, node.RefersTo names := by
  obtain ⟨found, hfound, h⟩ := bind_eq_ok.mp h
  cases h
  intro endpoint hendpoint
  obtain ⟨group, hgroup, hendpoint⟩ := List.mem_flatten.mp hendpoint
  obtain ⟨⟨path, item⟩, -, hitem⟩ := exists_left (forall₂_of_mapM hfound) hgroup
  obtain ⟨operations, -, hoperations⟩ := bind_eq_ok.mp hitem
  obtain ⟨⟨method, operation⟩, -, hoperation⟩ :=
    exists_left (forall₂_of_mapM hoperations) hendpoint
  exact refersTo_of_ofOperation hoperation

end Endpoint

namespace Socket

theorem refersTo_of_plainPayload {payload : Json} {node : Node}
    (h : plainPayload names payload = .ok node) : node.RefersTo names := by
  unfold plainPayload at h
  split at h
  · split at h
    · split at h
      · next hmem =>
        cases h
        exact refersTo_ref hmem
      · cases h
    · cases h
      exact refersTo_of_mentions_eq_nil rfl
  all_goals
    cases h
    exact refersTo_of_mentions_eq_nil rfl

theorem refersTo_of_payloadShape {document : AsyncApi.Document} {bound : Nat} {payload : Json}
    {node : Node} (h : payloadShape document names bound payload = .ok node) :
    node.RefersTo names := by
  induction bound generalizing payload node with
  | zero => cases h
  | succ bound ih =>
    obtain ⟨resolved, -, h⟩ := bind_eq_ok.mp h
    split at h
    · obtain ⟨members, hmembers, h⟩ := bind_eq_ok.mp h
      cases h
      split
      · exact refersTo_of_mentions_eq_nil rfl
      · refine refersTo_union fun member hmember => ?_
        obtain ⟨_, _, hoption⟩ := exists_left (forall₂_of_mapM hmembers) hmember
        exact ih hoption
    · exact refersTo_of_plainPayload h

theorem refersTo_of_sideOf {document : AsyncApi.Document} {channel : AsyncApi.ChannelItem}
    {id : String} {operation : AsyncApi.Operation} {side : Side} {node : Node}
    (h : sideOf document names channel id operation = .ok side) (hnode : side.payload = some node) :
    node.RefersTo names := by
  unfold sideOf at h
  split at h
  · cases h
    cases hnode
  · obtain ⟨message, -, h⟩ := bind_eq_ok.mp h
    split at h
    · cases h
      cases hnode
    · obtain ⟨shape, hshape, h⟩ := bind_eq_ok.mp h
      cases h
      cases hnode
      exact refersTo_of_payloadShape hshape

theorem refersTo_of_sideOf? {document : AsyncApi.Document} {channel : AsyncApi.ChannelItem}
    {found : Option (String × AsyncApi.Operation)} {side : Option Side} {node : Node}
    (h : sideOf? document names channel found = .ok side)
    (hnode : side.bind Side.payload = some node) : node.RefersTo names := by
  rcases found with _ | ⟨id, operation⟩
  · cases h
    cases hnode
  · obtain ⟨side, hside, rfl⟩ := map_eq_ok.mp h
    exact refersTo_of_sideOf hside hnode

/-- The payloads of a document refer to the entities that the document is read with. -/
theorem refersTo_of_spaceOfDocument {spaceName : String} {document : AsyncApi.Document}
    {space : Space} (h : Space.ofDocument spaceName names document = .ok space) :
    ∀ channel ∈ space.channels, ∀ node ∈ channel.payloads, node.RefersTo names := by
  obtain ⟨channels, hchannels, h⟩ := bind_eq_ok.mp h
  cases h
  intro channel hchannel node hnode
  obtain ⟨⟨key, item⟩, -, hitem⟩ := exists_left (forall₂_of_mapM hchannels) hchannel
  obtain ⟨receive, hreceive, hitem⟩ := bind_eq_ok.mp hitem
  obtain ⟨send, hsend, hitem⟩ := bind_eq_ok.mp hitem
  cases hitem
  simp only [Channel.payloads, List.mem_append, Option.mem_toList] at hnode
  rcases hnode with hnode | hnode
  · exact refersTo_of_sideOf? hreceive hnode
  · exact refersTo_of_sideOf? hsend hnode

end Socket

/-! ### Entities -/

theorem Entity.checkNames_eq_ok_iff {seen : List (String × String)} {entities : List Entity} :
    Entity.checkNames seen entities = .ok () ↔
      (entities.map Entity.name).Nodup ∧ ∀ entity ∈ entities, entity.name ∉ Keyed.keys seen := by
  induction entities generalizing seen with
  | nil => simp [Entity.checkNames]
  | cons entity rest ih =>
    rw [Entity.checkNames]
    cases hseen : Keyed.get? entity.name seen with
    | some previous =>
      have hmem : entity.name ∈ Keyed.keys seen := by
        by_contra h
        rw [Keyed.get?_eq_none_iff.mpr h] at hseen
        cases hseen
      simp [hmem]
    | none =>
      have hnot := Keyed.get?_eq_none_iff.mp hseen
      rw [List.forall_mem_cons, List.map_cons, List.nodup_cons]
      simp only [ih, Keyed.keys, List.map_cons, List.mem_cons, not_or]
      constructor
      · rintro ⟨hnodup, hrest⟩
        refine ⟨⟨fun h => ?_, hnodup⟩, hnot, fun e he => (hrest e he).2⟩
        obtain ⟨e, he, hname⟩ := List.mem_map.mp h
        exact (hrest e he).1 hname
      · rintro ⟨⟨hfirst, hnodup⟩, -, hrest⟩
        exact ⟨hnodup, fun e he => ⟨fun h => hfirst (h ▸ List.mem_map_of_mem he), hrest e he⟩⟩

namespace Source

/-- The names of the entity files, in order: what the entity module is to declare. -/
def declaredNames (source : Source) : List String :=
  source.entityFiles.map fun path => Name.entity (entityStem path)

theorem mem_entityNames {source : Source} {name : String} :
    name ∈ source.entityNames ↔ name ∈ source.declaredNames :=
  Keyed.mem_distinct

theorem entity_of_loadEntity {source : Source} {names : List String} {file : InputFile}
    {entity : Entity} (h : source.loadEntity names file = .ok entity) :
    entity.name = Name.entity (entityStem file.path) ∧ entity.shape.RefersTo names := by
  simp only [loadEntity, bind_eq_ok] at h
  obtain ⟨text, -, schema, -, shape, hshape, h⟩ := h
  obtain rfl := Except.ok.inj h
  exact ⟨by dsimp only, refersTo_of_node (mapError_eq_ok.mp hshape)⟩

theorem names_of_loadEntities {source : Source} {entities : List Entity}
    (h : source.loadEntities = .ok entities) :
    entities.map Entity.name = source.declaredNames := by
  have hloaded := forall₂_of_mapM h
  simp only [declaredNames, entityFiles, List.map_map, Function.comp_def]
  exact (map_eq_map_of_forall₂
    (hloaded.imp fun file entity h => (entity_of_loadEntity h).1.symm)).symm

theorem refersTo_of_loadEntities {source : Source} {entities : List Entity}
    (h : source.loadEntities = .ok entities) :
    ∀ entity ∈ entities, entity.shape.RefersTo source.entityNames := by
  intro entity hentity
  obtain ⟨file, -, hfile⟩ := exists_left (forall₂_of_mapM h) hentity
  exact (entity_of_loadEntity hfile).2

end Source

/-! ### The entity module -/

/-- What is declared and what is referred to, where `entities` are those of the entity files. -/
structure Source.ReferenceClosed (source : Source) (entities : List Entity) : Prop where
  /-- The entities are declared under the names of the files. -/
  names : entities.map Entity.name = source.declaredNames
  nodup : source.declaredNames.Nodup
  legal : ∀ name ∈ source.declaredNames,
    Name.isIdentifier name = true ∧ Name.isReserved name = false
  entities : ∀ entity ∈ entities, entity.shape.RefersTo source.declaredNames
  endpoints : ∀ document endpoints,
    Endpoint.ofDocument source.entityNames document = .ok endpoints →
      ∀ endpoint ∈ endpoints, ∀ node ∈ endpoint.shapes, node.RefersTo source.declaredNames
  payloads : ∀ spaceName document space,
    Socket.Space.ofDocument spaceName source.entityNames document = .ok space →
      ∀ channel ∈ space.channels, ∀ node ∈ channel.payloads,
        node.RefersTo source.declaredNames

theorem Node.RefersTo.declared {source : Source} {node : Node}
    (h : node.RefersTo source.entityNames) : node.RefersTo source.declaredNames :=
  fun name hname => Source.mem_entityNames.mp (h name hname)

theorem Source.referenceClosed {source : Source} {entities : List Entity}
    (hload : source.loadEntities = .ok entities) (hnodup : source.declaredNames.Nodup) :
    source.ReferenceClosed entities where
  names := names_of_loadEntities hload
  nodup := hnodup
  legal := by
    intro name hname
    obtain ⟨path, -, rfl⟩ := List.mem_map.mp hname
    exact ⟨Name.isIdentifier_binding _, Name.isReserved_binding _⟩
  entities := fun entity hentity => (refersTo_of_loadEntities hload entity hentity).declared
  endpoints := fun _ _ h endpoint hendpoint node hnode =>
    (Endpoint.refersTo_of_ofDocument h endpoint hendpoint node hnode).declared
  payloads := fun _ _ _ h channel hchannel node hnode =>
    (Socket.refersTo_of_spaceOfDocument h channel hchannel node hnode).declared

namespace Generator

variable {source : Source} {options : EntityOptions} {entities : List Entity}

theorem entityModule_eq (hload : source.loadEntities = .ok entities) :
    entityModule source options = (do
      (Entity.checkNames [] entities).mapError .duplicate
      .ok ⟨[⟨options.output, Entity.fragments entities⟩], []⟩) := by
  unfold entityModule
  rw [hload]
  rfl

/-- Where every entity file loads, the module is generated if the names differ. -/
theorem entityModule_of_nodup (hload : source.loadEntities = .ok entities)
    (hnodup : source.declaredNames.Nodup) :
    entityModule source options = .ok ⟨[⟨options.output, Entity.fragments entities⟩], []⟩ := by
  have hcheck : Entity.checkNames [] entities = .ok () := by
    rw [Entity.checkNames_eq_ok_iff, Source.names_of_loadEntities hload]
    exact ⟨hnodup, fun _ _ => List.not_mem_nil⟩
  rw [entityModule_eq hload, hcheck]
  rfl

/-- Where every entity file loads and two names are equal, that is the error. -/
theorem entityModule_of_not_nodup (options : EntityOptions)
    (hload : source.loadEntities = .ok entities)
    (hdup : ¬ source.declaredNames.Nodup) :
    ∃ error, entityModule source options = .error (.duplicate error) := by
  have hcheck : Entity.checkNames [] entities ≠ .ok () := by
    rw [Ne, Entity.checkNames_eq_ok_iff, Source.names_of_loadEntities hload]
    exact fun h => hdup h.1
  rw [entityModule_eq hload]
  cases h : Entity.checkNames [] entities with
  | ok _ => exact absurd h hcheck
  | error error => exact ⟨error, rfl⟩

/-- Where the entity files load, equal names are the one reason for which the entity module is not
generated; and where it is generated, it declares every entity that anything refers to. -/
theorem entityModule_referenceClosed (source : Source) (options : EntityOptions) :
    (∀ entities, source.loadEntities = .ok entities →
      ((∃ error, entityModule source options = .error (.duplicate error)) ↔
        ¬ source.declaredNames.Nodup)) ∧
    ∀ generation, entityModule source options = .ok generation →
      ∃ entities, source.loadEntities = .ok entities ∧
        generation = ⟨[⟨options.output, Entity.fragments entities⟩], []⟩ ∧
        source.ReferenceClosed entities := by
  constructor
  · intro entities hload
    refine ⟨fun ⟨error, herror⟩ hnodup => ?_, entityModule_of_not_nodup options hload⟩
    rw [entityModule_of_nodup hload hnodup] at herror
    cases herror
  · intro generation h
    obtain ⟨entities, hload, -⟩ := bind_eq_ok.mp h
    have hload := mapError_eq_ok.mp hload
    have hnodup : source.declaredNames.Nodup := by
      by_contra hdup
      obtain ⟨error, herror⟩ := entityModule_of_not_nodup options hload hdup
      rw [herror] at h
      cases h
    rw [entityModule_of_nodup hload hnodup] at h
    exact ⟨entities, hload, (Except.ok.inj h).symm, Source.referenceClosed hload hnodup⟩

end Generator

end TypedClients
