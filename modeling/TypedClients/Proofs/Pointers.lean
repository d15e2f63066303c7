import TypedClients.AsyncApi.Document
import TypedClients.Proofs.Json.Pointer
import TypedClients.Proofs.OpenApi.Annotations
import TypedClients.Proofs.Socket.Operations

/-!
# References that are made from keys

Operations refer to a channel by the pointer to its key, and an operation that cannot be decoded is
reported by the pointer to its place. Both pointers are written from keys of the document, and keys
may have slashes and tildes in them; looked up in the document they name the channel and the operation
all the same (`references_lead_back`).

A look-up takes one value for each key, so no object that it comes through may have a key twice.
AsyncAPI documents are kept with their repeated keys resolved; of OpenAPI documents it is assumed.

## What is proved

`references_lead_back` — for texts that are read: the reference of every channel names that channel
in the tree of its document and no other; two channels have different references; and the pointer of
the error for an operation that cannot be decoded names that operation. The steps of both are
written and undone in the order that the two replacements need.

## What is not here

References that users write. They may be pointers with any steps, and nothing says that they name
anything.
-/

namespace TypedClients

namespace Json

variable {tree value : Json} {members : List (String × Json)} {key : String}

/-- The value that is found under one key after the other. -/
def at? (value : Json) (keys : List String) : Option Json :=
  keys.foldlM (fun value key => value.member? key) value

/-- The reference is a number sign with a pointer that names the value in the tree. -/
def RefersTo (tree : Json) (reference : String) (value : Json) : Prop :=
  ∃ pointer, reference.toList = '#' :: pointer ∧ tree.pointer? pointer = some value

theorem pointer?_writePointer_of_at? {keys : List String} (h : tree.at? keys = some value) :
    tree.pointer? (writePointer keys) = some value := by
  rw [pointer?_writePointer]
  induction keys generalizing tree with
  | nil => exact h
  | cons key keys ih =>
    obtain ⟨next, hnext, hrest⟩ := Option.bind_eq_some_iff.mp h
    cases tree with
    | object members =>
      rw [List.foldlM_cons, stepInto?_object]
      exact Option.bind_eq_some_iff.mpr ⟨next, hnext, ih hrest⟩
    | _ => cases hnext

theorem exists_of_isSome_object? (h : value.object?.isSome = true) :
    ∃ members, value = .object members := by
  cases value with
  | object members => exact ⟨members, rfl⟩
  | _ => cases h

/-- In a tree without repeated keys every member of an object is found under its key. -/
theorem at?_cons_of_mem {keys : List String} (hunique : (object members).hasUniqueKeys = true)
    (h : (key, value) ∈ members) : (object members).at? (key :: keys) = value.at? keys := by
  have hget := (Keyed.get?_eq_some_iff_of_nodup (hasUniqueKeys_object.mp hunique).1).mpr h
  rw [at?, List.foldlM_cons, member?, hget]
  rfl

theorem hasUniqueKeys_of_mem (hunique : (object members).hasUniqueKeys = true)
    (h : (key, value) ∈ members) : value.hasUniqueKeys = true :=
  (hasUniqueKeys_object.mp hunique).2 _ h

end Json

open Json (at?_cons_of_mem exists_of_mem_map? hasUniqueKeys_of_mem)

/-! ### Channels -/

namespace AsyncApi

theorem toList_channelRef (key : String) :
    (channelRef key).toList = '#' :: Json.writePointer ["channels", key] := by
  have hword : "#/channels/".toList = '#' :: '/' :: (Json.escapeStepChars "channels".toList ++ ['/']) :=
    rfl
  simp [channelRef, Json.escapeStep, Json.writePointer, hword]

/-- A document keeps the tree it is read from, with the repeated keys resolved. -/
theorem Document.tree_of_parse {text : String} {document : Document}
    (h : Document.parse text = .ok document) :
    document.tree.hasUniqueKeys = true ∧ Document.ofJson? document.tree = some document := by
  obtain ⟨tree, -, h⟩ := bind_eq_ok.mp h
  split at h
  · cases h
  · next read hread =>
    have htree : Document.tree read = tree.unique := by
      simp only [Document.ofJson?, Option.bind_eq_bind, Option.bind_eq_some_iff] at hread
      obtain ⟨_, -, _, -, _, -, _, -, _, -, hread⟩ := hread
      cases hread
      rfl
    split at h
    · cases h
      rw [htree]
      exact ⟨Json.hasUniqueKeys_unique tree, hread⟩
    · cases h

/-- A channel of a document is read from the value under its key. -/
theorem Document.exists_of_mem_channels {document : Document} {members : List (String × Json)}
    {key : String} {item : ChannelItem} (h : Document.ofJson? (.object members) = some document)
    (hunique : (Json.object members).hasUniqueKeys = true) (hitem : (key, item) ∈ document.channels) :
    ∃ value, (Json.object members).at? ["channels", key] = some value ∧
      ChannelItem.ofJson? value = some item := by
  simp only [Document.ofJson?, Option.bind_eq_bind, Option.bind_eq_some_iff] at h
  obtain ⟨record, hrecord, _, -, _, -, channels, hchannels, _, -, h⟩ := h
  cases h
  obtain ⟨value, hvalue, hmap⟩ := Json.exists_of_mem_defaulted? hchannels hitem
  obtain ⟨inner, part, rfl, hpart, hdecode⟩ := exists_of_mem_map? hmap hitem
  have hmember := Json.mem_of_fieldsOfMembers hrecord hvalue
  refine ⟨part, ?_, hdecode⟩
  rw [at?_cons_of_mem hunique hmember, at?_cons_of_mem (hasUniqueKeys_of_mem hunique hmember) hpart]
  rfl

end AsyncApi

/-! ### Operations of a path -/

namespace OpenApi

theorem Draft.paths_of_member {draft next : Draft} {key : String} {value : Json}
    (h : draft.member key value = .ok next) :
    next.paths = draft.paths ∨ key = "paths" ∧ next.paths = pathsOfJson? value := by
  unfold Draft.member at h
  split at h
  · obtain ⟨_, -, h⟩ := bind_eq_ok.mp h
    obtain ⟨_, -, h⟩ := bind_eq_ok.mp h
    cases h
    exact .inl rfl
  · obtain ⟨_, -, h⟩ := bind_eq_ok.mp h
    obtain ⟨_, -, h⟩ := bind_eq_ok.mp h
    cases h
    exact .inl rfl
  · obtain ⟨_, -, h⟩ := bind_eq_ok.mp h
    obtain ⟨paths, hpaths, h⟩ := bind_eq_ok.mp h
    cases h
    unfold fitting at hpaths
    split at hpaths
    · next found hfound =>
      cases hpaths
      exact .inr ⟨rfl, hfound.symm⟩
    · cases hpaths
  · cases h
    exact .inl rfl

/-- The paths of a draft are those it began with or those of a member. -/
theorem Draft.paths_of_members {members : List (String × Json)} {draft last : Draft}
    (h : members.foldlM (fun draft m => draft.member m.1 m.2) draft = .ok last) :
    last.paths = draft.paths ∨ ∃ value, ("paths", value) ∈ members ∧
      last.paths = pathsOfJson? value := by
  induction members generalizing draft with
  | nil =>
    cases h
    exact .inl rfl
  | cons m members ih =>
    obtain ⟨key, value⟩ := m
    rw [List.foldlM_cons] at h
    obtain ⟨next, hnext, h⟩ := bind_eq_ok.mp h
    rcases ih h with hlast | ⟨other, hother, hlast⟩
    · rcases paths_of_member hnext with hpaths | ⟨rfl, hpaths⟩
      · exact .inl (hlast.trans hpaths)
      · exact .inr ⟨value, List.mem_cons_self, hlast.trans hpaths⟩
    · exact .inr ⟨other, List.mem_cons_of_mem _ hother, hlast⟩

/-- A path item of a document is read from the value under its path. -/
theorem Document.exists_of_mem_paths {document : Document} {members : List (String × Json)}
    {path : String} {item : PathItem} (h : Document.ofJson (.object members) = .ok document)
    (hitem : (path, item) ∈ document.paths) :
    ∃ paths fields, ("paths", .object paths) ∈ members ∧ (path, .object fields) ∈ paths ∧
      PathItem.ofJson? (.object fields) = some item := by
  obtain ⟨draft, hdraft, h⟩ := bind_eq_ok.mp h
  have hdocument : document.paths = draft.paths.getD [] := by
    unfold Draft.finish at h
    split at h
    · cases h
      rfl
    · cases h
  rw [hdocument] at hitem
  rcases Draft.paths_of_members hdraft with hpaths | ⟨value, hvalue, hpaths⟩
  · rw [hpaths] at hitem
    cases hitem
  · cases hmap : pathsOfJson? value with
    | none =>
      rw [hpaths, hmap] at hitem
      cases hitem
    | some items =>
      rw [hpaths, hmap] at hitem
      obtain ⟨paths, part, rfl, hpart, hdecode⟩ := exists_of_mem_map? hmap hitem
      cases part with
      | object fields => exact ⟨paths, fields, hvalue, hpart, hdecode⟩
      | _ => cases hdecode

theorem Document.ofJson_of_parse {text : String} {tree : Json} {document : Document}
    (htext : Json.read text = .ok tree) (h : Document.parse text = .ok document) :
    Document.ofJson tree = .ok document := by
  rw [Document.parse, Document.read, htext] at h
  obtain ⟨read, hread, h⟩ := bind_eq_ok.mp h
  split at h
  · cases h
    exact mapError_eq_ok.mp hread
  · cases h

/-- The members that a path item keeps stand under its path in the document. -/
theorem Document.at?_of_mem_entries {document : Document} {members : List (String × Json)}
    {entry : String × PathItem} {key : String} {value : Json}
    (h : Document.ofJson (.object members) = .ok document)
    (hunique : (Json.object members).hasUniqueKeys = true) (hentry : entry ∈ document.paths)
    (hvalue : (key, value) ∈ entry.2.entries) :
    (Json.object members).at? ["paths", entry.1, key] = some value := by
  obtain ⟨paths, fields, hpaths, hfields, hitem⟩ := Document.exists_of_mem_paths h hentry
  have huniquePaths := hasUniqueKeys_of_mem hunique hpaths
  have huniqueFields := hasUniqueKeys_of_mem huniquePaths hfields
  rw [pathItem_eq huniqueFields] at hitem
  obtain ⟨parameters, -, hitem⟩ := Option.map_eq_some_iff.mp hitem
  rw [← hitem] at hvalue
  rw [at?_cons_of_mem hunique hpaths, at?_cons_of_mem huniquePaths hfields,
    at?_cons_of_mem huniqueFields (List.mem_of_mem_filter hvalue)]
  rfl

/-- The operations of a path item fail at one that cannot be decoded. -/
theorem PathItem.operations_eq_error {path : String} {item : PathItem} {e : ResolveError}
    (h : item.operations path = .error e) :
    ∃ key method value, (key, value) ∈ item.entries ∧ Method.ofWord? key = some method ∧
      Operation.ofJson? value = none ∧
      e = .invalidPart ("#/paths/" ++ Json.escapeStep path ++ "/" ++ key) .mismatch := by
  have hfound : ∀ x : Except ResolveError (List (Option (Method × Operation))),
      (x >>= fun found => Except.ok (found.filterMap id)) = .error e → x = .error e := by
    intro x hx
    cases x with
    | error e' => cases hx; rfl
    | ok found => cases hx
  obtain ⟨⟨key, value⟩, hentry, herror⟩ := exists_of_mapM_eq_error (hfound _ h)
  dsimp only at herror
  split at herror
  · cases herror
  · next method hmethod =>
    split at herror
    · cases herror
    · next hvalue =>
      cases herror
      exact ⟨key, method, value, hentry, hmethod, hvalue, rfl⟩

theorem toList_operationRef (path : String) (method : Method) :
    ("#/paths/" ++ Json.escapeStep path ++ "/" ++ method.word).toList
      = '#' :: Json.writePointer ["paths", path, method.word] := by
  have hword : "#/paths/".toList = '#' :: '/' :: (Json.escapeStepChars "paths".toList ++ ['/']) :=
    rfl
  have hmethod : Json.escapeStepChars method.word.toList = method.word.toList := by
    cases method <;> rfl
  simp [Json.escapeStep, Json.writePointer, hword, hmethod]

end OpenApi

/-! ### Both kinds of references -/

open AsyncApi (channelRef)

/-- A look-up takes a pointer apart at its slashes, and undoes the escaped slashes of a step before
the tildes. In an AsyncAPI document that is an object the reference to the key of a channel leads to
the value under that key, and no other key has that reference. In an OpenAPI document that is an
object with unique keys the reference to an operation that cannot be decoded leads to the value under
its path and method, and it is that value that cannot be decoded. -/
theorem references_lead_back :
    (∀ path, Json.pointerSteps? ('/' :: path) = some ((Text.split '/' path).map fun step =>
      Text.replaceFrom ['~', '0'] ['~'] 0 (Text.replaceFrom ['~', '1'] ['/'] 0 step))) ∧
    (∀ text (document : AsyncApi.Document) members,
      AsyncApi.Document.parse text = .ok document → document.tree = .object members →
        (∀ entry ∈ document.channels, ∃ value, document.tree.at? ["channels", entry.1] = some value ∧
          AsyncApi.ChannelItem.ofJson? value = some entry.2) ∧
        ∀ key value, document.tree.at? ["channels", key] = some value →
          document.tree.RefersTo (channelRef key) value) ∧
    (∀ a b, channelRef a = channelRef b → a = b) ∧
    ∀ text members (document : OpenApi.Document), Json.read text = .ok (.object members) →
      (Json.object members).hasUniqueKeys = true → OpenApi.Document.parse text = .ok document →
        ∀ entry ∈ document.paths, ∀ e, entry.2.operations entry.1 = .error e →
          ∃ reference method value, e = .invalidPart reference .mismatch ∧
            (Json.object members).at? ["paths", entry.1, Method.word method] = some value ∧
            OpenApi.Operation.ofJson? value = none ∧
            (Json.object members).RefersTo reference value := by
  refine ⟨?steps, ?channels, fun a b => AsyncApi.channelRef_inj, ?operations⟩
  case steps =>
    intro path
    rw [Json.pointerSteps?]
    exact congrArg some (List.map_congr_left fun step _ => Json.unescapeStepChars_eq_replaceFrom step)
  case channels =>
    intro text document members hparse htree
    obtain ⟨hunique, hread⟩ := AsyncApi.Document.tree_of_parse hparse
    rw [htree] at hunique hread ⊢
    refine ⟨fun entry hentry => AsyncApi.Document.exists_of_mem_channels hread hunique hentry, ?_⟩
    intro key value hvalue
    exact ⟨_, AsyncApi.toList_channelRef key, Json.pointer?_writePointer_of_at? hvalue⟩
  case operations =>
    intro text members document htext hunique hparse entry hentry e herror
    have hread := OpenApi.Document.ofJson_of_parse htext hparse
    obtain ⟨key, method, value, hmember, hmethod, hvalue, rfl⟩ :=
      OpenApi.PathItem.operations_eq_error herror
    obtain rfl := Method.ofWord?_eq_some_iff.mp hmethod
    have hat := OpenApi.Document.at?_of_mem_entries hread hunique hentry hmember
    exact ⟨_, method, value, rfl, hat, hvalue, _, OpenApi.toList_operationRef entry.1 method,
      Json.pointer?_writePointer_of_at? hat⟩

/-- An AsyncAPI document with a channel under a key that looks escaped, and one under no name. -/
def harborText : String :=
  "\x7b\"asyncapi\":\"3.0.0\",\"info\":\x7b\x7d,\"channels\":\x7b\"dock/~1\":\x7b\x7d,\"\":\x7b\x7d\x7d\x7d"

/-- An OpenAPI document with an operation that cannot be decoded. -/
def pierText : String :=
  "\x7b\"openapi\":\"3.0.0\",\"info\":\x7b\x7d,\"paths\":\x7b\"/pier~0\":\x7b\"get\":\x7b\x7d,\"put\":1\x7d\x7d\x7d"

theorem references_lead_back_harbor :
    (∃ document value, AsyncApi.Document.parse harborText = .ok document ∧
      document.tree.at? ["channels", "dock/~1"] = some value ∧
      document.tree.RefersTo "#/channels/dock~1~01" value) ∧
    ∃ tree method value, Json.read pierText = .ok tree ∧
      tree.at? ["paths", "/pier~0", Method.word method] = some value ∧
      OpenApi.Operation.ofJson? value = none ∧ tree.RefersTo "#/paths/~1pier~00/put" value := by
  obtain ⟨-, hchannels, -, hoperations⟩ := references_lead_back
  constructor
  · have hparse : ((AsyncApi.Document.parse harborText).map fun document =>
          (document.tree.object?.isSome, Keyed.keys document.channels))
        = .ok (true, ["dock/~1", ""]) := by
      decide +kernel
    have href : channelRef "dock/~1" = "#/channels/dock~1~01" := by decide +kernel
    obtain ⟨document, hdocument, hparts⟩ := map_eq_ok.mp hparse
    obtain ⟨hobject, hkeys⟩ := Prod.mk.inj hparts
    obtain ⟨members, htree⟩ := Json.exists_of_isSome_object? hobject
    have hkey : "dock/~1" ∈ Keyed.keys document.channels := hkeys ▸ List.mem_cons_self
    obtain ⟨entry, hentry, hname⟩ := List.mem_map.mp hkey
    obtain ⟨hread, hrefers⟩ := hchannels _ document members hdocument htree
    obtain ⟨value, hvalue, -⟩ := hread entry hentry
    rw [hname] at hvalue
    exact ⟨document, value, hdocument, hvalue, href ▸ hrefers _ value hvalue⟩
  · have hread : ((Json.read pierText).map fun tree => (tree.object?.isSome, tree.hasUniqueKeys))
        = .ok (true, true) := by
      decide +kernel
    have hparse : ((OpenApi.Document.parse pierText).map fun document => document.paths.map fun entry =>
          (entry.1, (entry.2.operations entry.1).map fun _ => ()))
        = .ok [("/pier~0", .error (.invalidPart "#/paths/~1pier~00/put" .mismatch))] := by
      decide +kernel
    obtain ⟨tree, htree, hparts⟩ := map_eq_ok.mp hread
    obtain ⟨hobject, hunique⟩ := Prod.mk.inj hparts
    obtain ⟨members, rfl⟩ := Json.exists_of_isSome_object? hobject
    obtain ⟨document, hdocument, hpaths⟩ := map_eq_ok.mp hparse
    obtain ⟨entry, hentry, hresult⟩ := List.mem_map.mp (hpaths ▸ List.mem_cons_self)
    obtain ⟨hpath, herror⟩ := Prod.mk.inj hresult
    obtain ⟨reference, method, value, hreference, hat, hvalue, hrefers⟩ :=
      hoperations _ members document htree hunique hdocument entry hentry _ (map_eq_error.mp herror)
    cases hreference
    rw [hpath] at hat
    exact ⟨_, method, value, htree, hat, hvalue, hrefers⟩

end TypedClients
