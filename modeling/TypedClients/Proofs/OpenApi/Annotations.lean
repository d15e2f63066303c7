import TypedClients.OpenApi.Reader
import TypedClients.Proofs.OpenApi.Decode

/-!
# Annotations are not read

The documentation of a document has no influence on its endpoints. A path item keeps its members as
trees, of which the operations are read later, so the path items of the bare document are themselves
bare (`document_bare`); but they have the same operations (`operations_bare`). So trees that are bare
alike have the same endpoints, or none for the same reason (`annotations_not_read`).

Repeated keys in a path item are resolved before its operations are read. This is why the keys of the
tree are to be unique: an object with two references is not read as a reference, but it is after one
of them has been dropped.

## What is proved

`annotations_not_read` — for two trees with unique keys that are the same but for what is not read:
they have the same endpoints, or both have none, for the same reason. What is not read are the
members besides the fields of each kind of object, at any depth, and what stands beside a reference.

## What is assumed

That keys are unique is said of the trees, before anything is taken out.
-/

namespace TypedClients.OpenApi

/-! ### Trees with unique keys -/

theorem hasUniqueKeys_bare {place : Place} {value : Json} (h : value.hasUniqueKeys = true) :
    (bare place value).hasUniqueKeys = true := by
  induction value using Json.induction generalizing place with
  | array items ih =>
    rw [Json.hasUniqueKeys_array] at h
    cases place with
    | one kind =>
      rw [bare, Json.hasUniqueKeys_array]
      intro x hx
      obtain ⟨place, item, hitem, rfl⟩ := mem_barePositions hx
      exact ih item hitem (h item hitem)
    | list kind =>
      rw [bare, Json.hasUniqueKeys_array, bareItems_eq_map, List.forall_mem_map]
      exact fun item hitem => ih item hitem (h item hitem)
    | _ => exact Json.hasUniqueKeys_array.mpr h
  | object members ih =>
    obtain ⟨hkeys, hvalues⟩ := Json.hasUniqueKeys_object.mp h
    cases place with
    | one kind =>
      rw [bare]
      split
      · rfl
      · rw [bareMembers_eq, Json.hasUniqueKeys_object, Keyed.keys, keys_bareRecord]
        refine ⟨hkeys.sublist (List.filter_sublist.map _), ?_⟩
        rw [Kind.bareRecord, List.forall_mem_map]
        intro m hm
        have hm := List.mem_of_mem_filter hm
        exact ih m hm (hvalues m hm)
    | map kind =>
      rw [bare, bareValues_eq_map, Json.hasUniqueKeys_object, Keyed.keys, List.map_map,
        List.forall_mem_map]
      exact ⟨hkeys, fun m hm => ih m hm (hvalues m hm)⟩
    | _ => exact h
  | _ => rfl

/-! ### Path items -/

/-- A path item without what is not read of its members. -/
def PathItem.bare (item : PathItem) : PathItem :=
  ⟨item.parameters, bareMembers .pathItem item.entries⟩

/-- A path item from an object with unique keys. -/
theorem pathItem_eq {members : List (String × Json)}
    (h : (Json.object members).hasUniqueKeys = true) :
    PathItem.ofJson? (.object members)
      = (Json.defaulted? "parameters" [] (Json.list? ParameterItem.ofJson?) members).map
          fun parameters => ⟨parameters, members.filter fun m => m.1 != "parameters"⟩ := by
  obtain ⟨hkeys, hvalues⟩ := Json.hasUniqueKeys_object.mp h
  have hothers : Keyed.ofList (Json.uniqueMembers (members.filter fun m => m.1 != "parameters"))
      = members.filter fun m => m.1 != "parameters" := by
    rw [Json.uniqueMembers_eq_self fun m hm =>
      Json.unique_eq_self (hvalues m (List.mem_of_mem_filter hm))]
    exact Keyed.ofList_eq_self (hkeys.sublist (List.filter_sublist.map _))
  rw [PathItem.ofJson?, Json.defaulted?, Keyed.filter_eq_of_nodup hkeys]
  cases Keyed.get? "parameters" members with
  | none =>
    simp only [Option.toList_none, List.map_nil, PathItem.ofParts, hothers]
    rfl
  | some value =>
    simp only [Option.toList_some, List.map_cons, List.map_nil, PathItem.ofParts, hothers]
    cases Json.list? ParameterItem.ofJson? value <;> rfl

theorem pathItem_bare {value : Json} (h : value.hasUniqueKeys = true) :
    PathItem.ofJson? (bare (.one .pathItem) value)
      = (PathItem.ofJson? value).map PathItem.bare := by
  cases value with
  | object members =>
    have hbare : bare (.one .pathItem) (.object members)
        = .object (bareMembers .pathItem members) := rfl
    have hparameters : Json.defaulted? "parameters" [] (Json.list? ParameterItem.ofJson?)
          (bareMembers .pathItem members)
        = Json.defaulted? "parameters" [] (Json.list? ParameterItem.ofJson?) members := by
      rw [bareMembers_eq, defaulted?_bareRecord fun x _ =>
        list?_bare fun _ _ item _ => parameterItem_bare item, Json.defaulted?,
        Keyed.get?_filter (by decide)]
      rfl
    have hothers : (bareMembers .pathItem members).filter (fun m => m.1 != "parameters")
        = bareMembers .pathItem (members.filter fun m => m.1 != "parameters") := by
      rw [bareMembers_eq, bareMembers_eq, filter_bareRecord (· != "parameters"),
        List.filter_comm]
    have hunique := @hasUniqueKeys_bare (.one .pathItem) _ h
    rw [hbare] at hunique ⊢
    rw [pathItem_eq hunique, pathItem_eq h, hparameters, hothers, Option.map_map]
    rfl
  | _ => rfl

/-- What a traversal finds among the members of a bare object is what it finds among those of the
object, if it finds nothing in the members that are not read. -/
theorem filterMap_mapM_bareMembers {ε β : Type} {read : String × Json → Except ε (Option β)}
    {kind : Kind} (hskipped : ∀ m, kind.reads m.1 = false → read m = .ok none)
    (hbare : ∀ m, read (m.1, bare (kind.place m.1) m.2) = read m)
    (members : List (String × Json)) :
    ((bareMembers kind members).mapM read).map (List.filterMap id)
      = (members.mapM read).map (List.filterMap id) := by
  have hcons : ∀ (m : String × Json) (rest : List (String × Json)),
      ((m :: rest).mapM read).map (List.filterMap id)
        = (read m).bind fun first =>
            ((rest.mapM read).map (List.filterMap id)).map (first.toList ++ ·) := by
    intro m rest
    rw [List.mapM_cons]
    cases read m with
    | error e => rfl
    | ok first => cases rest.mapM read <;> cases first <;> rfl
  induction members with
  | nil => rfl
  | cons m members ih =>
    rw [bareMembers]
    by_cases hreads : kind.reads m.1 = true
    · rw [if_pos hreads, hcons, hbare, ih, hcons]
    · rw [if_neg hreads, hcons, hskipped m (by simpa using hreads), ← ih]
      cases (bareMembers kind members).mapM read <;> rfl

/-- The operations of a path item are those of the bare one. -/
theorem operations_bare (path : String) (item : PathItem) :
    item.bare.operations path = item.operations path := by
  have hfound : ∀ found : Except ResolveError (List (Option (Method × Operation))),
      (do let found ← found; .ok (found.filterMap id)) = found.map (List.filterMap id) := by
    intro found
    cases found <;> rfl
  rw [PathItem.operations, PathItem.operations, hfound, hfound]
  refine filterMap_mapM_bareMembers (fun m hm => ?_) (fun m => ?_) item.entries
  · cases hword : Method.ofWord? m.1 with
    | none => simp only [hword]
    | some method =>
      rw [Method.ofWord?_eq_some_iff.mp hword] at hm
      cases method <;> cases hm
  · cases hword : Method.ofWord? m.1 with
    | none => simp only [hword]
    | some method =>
      have hplace : Kind.pathItem.place m.1 = .one .operation := by
        rw [Method.ofWord?_eq_some_iff.mp hword]
        cases method <;> rfl
      simp only [hplace, operation_bare]

theorem ofPathItem_bare (entities : List String) (path : String) (item : PathItem) :
    Endpoint.ofPathItem entities path item.bare = Endpoint.ofPathItem entities path item := by
  rw [Endpoint.ofPathItem, Endpoint.ofPathItem, operations_bare]
  rfl

/-! ### Documents -/

/-- A document without what is not read of its path items. -/
def Document.bare (document : Document) : Document :=
  { document with paths := document.paths.map fun path => (path.1, path.2.bare) }

/-- A draft without what is not read of its path items. -/
def Draft.bare (draft : Draft) : Draft :=
  { draft with paths := draft.paths.map (List.map fun path => (path.1, path.2.bare)) }

theorem pathsOfJson?_bare {value : Json} (h : value.hasUniqueKeys = true) :
    pathsOfJson? (bare (.map .pathItem) value)
      = (pathsOfJson? value).map (List.map fun path => (path.1, path.2.bare)) := by
  refine map?_bare_map fun members hmembers m hm => pathItem_bare ?_
  rw [hmembers] at h
  exact (Json.hasUniqueKeys_object.mp h).2 m hm

/-- A fold over the members of a bare object, where members that are not read change nothing. -/
theorem foldlM_bareMembers {ε σ : Type} {step : σ → String × Json → Except ε σ} {kind : Kind}
    {f : σ → σ} {members : List (String × Json)}
    (hskipped : ∀ s m, kind.reads m.1 = false → step s m = .ok s)
    (hbare : ∀ s, ∀ m ∈ members,
      step (f s) (m.1, bare (kind.place m.1) m.2) = (step s m).map f) (s : σ) :
    (bareMembers kind members).foldlM step (f s) = (members.foldlM step s).map f := by
  induction members generalizing s with
  | nil => rfl
  | cons m members ih =>
    have ih := ih fun s x hx => hbare s x (List.mem_cons_of_mem _ hx)
    rw [bareMembers, List.foldlM_cons]
    by_cases hreads : kind.reads m.1 = true
    · rw [if_pos hreads, List.foldlM_cons, hbare s m List.mem_cons_self]
      cases step s m with
      | error e => rfl
      | ok next => exact ih next
    · rw [if_neg hreads, hskipped s m (by simpa using hreads)]
      exact ih s

theorem titleOfJson_bare (value : Json) :
    titleOfJson (bare (.one .info) value) = titleOfJson value := by
  cases value with
  | object members =>
    refine congrArg (fun title : Except Json.Fault (Option String) => do
      let title ← title
      .ok (title.getD "")) ?_
    refine (@foldlM_bareMembers _ _ _ Kind.info id members (fun title m hm => ?_)
      (fun title m _ => ?_) none).trans ?_
    · have hkey : m.1 ≠ "title" := by
        intro hkey
        rw [hkey] at hm
        cases hm
      exact if_neg hkey
    · by_cases hkey : m.1 = "title"
      · have hplace : Kind.info.place m.1 = .leaf := by
          rw [hkey]
          rfl
        rw [hplace, bare_leaf, Except.map_id]
        rfl
      · show (if m.1 = "title" then _ else _) = Except.map id (if m.1 = "title" then _ else _)
        rw [if_neg hkey, if_neg hkey]
        rfl
    · rw [Except.map_id]
      rfl
  | array items =>
    show titleOfJson (.array (barePositions [.leaf] items)) = titleOfJson (.array items)
    rw [barePositions_leaf fun place hplace => List.mem_singleton.mp hplace]
  | _ => rfl

theorem member_of_unread {draft : Draft} {key : String} {value : Json}
    (h : Kind.document.reads key = false) : draft.member key value = .ok draft := by
  unfold Draft.member
  split
  · cases h
  · cases h
  · cases h
  · rfl

/-- A member of a document is taken into the draft alike. -/
theorem member_bare (draft : Draft) (key : String) {value : Json}
    (h : value.hasUniqueKeys = true) :
    draft.bare.member key (bare (Kind.document.place key) value)
      = (draft.member key value).map Draft.bare := by
  by_cases hversion : key = "openapi"
  · subst hversion
    have hplace : Kind.document.place "openapi" = .leaf := rfl
    rw [hplace, bare_leaf]
    show (unlessGiven draft.version >>= _) = Except.map _ (unlessGiven draft.version >>= _)
    cases unlessGiven draft.version with
    | error fault => rfl
    | ok _ =>
      show (fitting value.string? >>= _) = Except.map _ (fitting value.string? >>= _)
      cases fitting value.string? <;> rfl
  by_cases hinfo : key = "info"
  · subst hinfo
    show (unlessGiven draft.title >>= _) = Except.map _ (unlessGiven draft.title >>= _)
    cases unlessGiven draft.title with
    | error fault => rfl
    | ok _ =>
      show (titleOfJson (bare (.one .info) value) >>= _)
        = Except.map _ (titleOfJson value >>= _)
      rw [titleOfJson_bare]
      cases titleOfJson value <;> rfl
  by_cases hpaths : key = "paths"
  · subst hpaths
    have hgiven : unlessGiven draft.bare.paths = unlessGiven draft.paths := by
      rw [unlessGiven, unlessGiven, Draft.bare, Option.isSome_map]
    show (unlessGiven draft.bare.paths >>= _) = Except.map _ (unlessGiven draft.paths >>= _)
    rw [hgiven]
    cases unlessGiven draft.paths with
    | error fault => rfl
    | ok _ =>
      show (fitting (pathsOfJson? (bare (.map .pathItem) value)) >>= _)
        = Except.map _ (fitting (pathsOfJson? value) >>= _)
      rw [pathsOfJson?_bare h]
      cases pathsOfJson? value <;> rfl
  · have hunread : Kind.document.reads key = false := by
      rw [Kind.reads, decide_eq_false_iff_not]
      simp [Kind.fields, Keyed.keys, hversion, hinfo, hpaths]
    rw [member_of_unread hunread, member_of_unread hunread]
    rfl

theorem finish_bare (draft : Draft) : draft.bare.finish = draft.finish.map Document.bare := by
  obtain ⟨_ | version, _ | title, paths⟩ := draft
  · rfl
  · rfl
  · rfl
  · cases paths <;> rfl

/-- The draft of the members that a document has. -/
def Draft.ofMembers (members : List (String × Json)) : Except Json.Fault Draft :=
  members.foldlM (fun draft m => Draft.member draft m.1 m.2) ⟨none, none, none⟩

theorem ofMembers_bare {members : List (String × Json)}
    (h : ∀ m ∈ members, m.2.hasUniqueKeys = true) :
    Draft.ofMembers (bareMembers .document members) = (Draft.ofMembers members).map Draft.bare :=
  @foldlM_bareMembers _ _ (fun draft m => Draft.member draft m.1 m.2) .document Draft.bare members
    (fun _ _ => member_of_unread) (fun draft m hm => member_bare draft m.1 (h m hm))
    ⟨none, none, none⟩

/-- A document is decoded from the bare tree as the bare document. -/
theorem document_bare {tree : Json} (h : tree.hasUniqueKeys = true) :
    Document.ofJson (bare (.one .document) tree)
      = (Document.ofJson tree).map Document.bare := by
  cases tree with
  | object members =>
    show (Draft.ofMembers (bareMembers .document members) >>= _)
      = Except.map _ (Draft.ofMembers members >>= _)
    rw [ofMembers_bare (Json.hasUniqueKeys_object.mp h).2]
    cases Draft.ofMembers members with
    | error fault => rfl
    | ok draft => exact finish_bare draft
  | array items =>
    have hzip : ["openapi", "info", "paths"].zip
          (barePositions (Kind.document.fields.map Prod.snd) items)
        = Kind.document.bareRecord (["openapi", "info", "paths"].zip items) :=
      @zip_barePositions .document Kind.document.fields (fun _ => Kind.place_of_mem) items
    have hread : (["openapi", "info", "paths"].zip items).filter (fun m => Kind.document.reads m.1)
        = ["openapi", "info", "paths"].zip items :=
      List.filter_eq_self.mpr fun m hm => decide_eq_true (List.of_mem_zip hm).1
    have hmembers := ofMembers_bare fun m (hm : m ∈ ["openapi", "info", "paths"].zip items) =>
      Json.hasUniqueKeys_array.mp h m.2 (List.of_mem_zip hm).2
    rw [bareMembers_eq, hread, ← hzip] at hmembers
    show (Draft.ofMembers (["openapi", "info", "paths"].zip
        (barePositions (Kind.document.fields.map Prod.snd) items)) >>= _)
      = Except.map _ (Draft.ofMembers (["openapi", "info", "paths"].zip items) >>= _)
    rw [hmembers]
    cases Draft.ofMembers (["openapi", "info", "paths"].zip items) with
    | error fault => rfl
    | ok draft =>
      show (if (barePositions _ items).length ≤ 3 then _ else _)
        = Except.map _ (if items.length ≤ 3 then _ else _)
      rw [length_barePositions]
      split
      · exact finish_bare draft
      · rfl
  | _ => rfl

/-! ### Endpoints -/

theorem ofDocument_bare (entities : List String) (document : Document) :
    Endpoint.ofDocument entities document.bare = Endpoint.ofDocument entities document := by
  have hpaths : document.paths.mapM (fun path => Endpoint.ofPathItem entities path.1 path.2.bare)
      = document.paths.mapM fun path => Endpoint.ofPathItem entities path.1 path.2 :=
    mapM_congr_left fun path _ => ofPathItem_bare entities path.1 path.2
  rw [Endpoint.ofDocument, Endpoint.ofDocument, Document.bare, List.mapM_map]
  show (document.paths.mapM (fun path => Endpoint.ofPathItem entities path.1 path.2.bare) >>= _) = _
  rw [hpaths]

/-- The endpoints of a document that is given as a tree, or why there are none. -/
def endpointsOf (entities : List String) (tree : Json) :
    Except (ParseError ⊕ ResolveError) (List Endpoint) := do
  let document ← (Document.ofJson tree).mapError fun fault => .inl (.json fault)
  if isSupportedVersion document.version then (Endpoint.ofDocument entities document).mapError .inr
  else .error (.inl (.openApiVersion document.version))

/-- A text that is a tree has the endpoints of the tree. -/
theorem endpointsOf_of_read {entities : List String} {text : String} {tree : Json}
    (h : Json.read text = .ok tree) :
    ((Document.parse text).mapError .inl >>= fun document =>
      (Endpoint.ofDocument entities document).mapError .inr) = endpointsOf entities tree := by
  rw [Document.parse, Document.read, h, endpointsOf]
  show (((Document.ofJson tree).mapError ParseError.json >>= _).mapError _ >>= _) = _
  cases Document.ofJson tree with
  | error fault => rfl
  | ok document =>
    show ((if isSupportedVersion document.version then _ else _ : Except ParseError Document).mapError
      _ >>= _) = if isSupportedVersion document.version then _ else _
    split <;> rfl

theorem endpointsOf_bare (entities : List String) {tree : Json} (h : tree.hasUniqueKeys = true) :
    endpointsOf entities (bare (.one .document) tree) = endpointsOf entities tree := by
  rw [endpointsOf, endpointsOf, document_bare h]
  cases Document.ofJson tree with
  | error fault => rfl
  | ok document =>
    show (if isSupportedVersion document.version then _ else _)
      = if isSupportedVersion document.version then _ else _
    rw [ofDocument_bare]
    rfl

/-- Taking out of a document what is not read leaves its endpoints, or the reason why there are none,
as they are; and so do other annotations in their place. -/
theorem annotations_not_read (entities : List String) {tree : Json}
    (h : tree.hasUniqueKeys = true) :
    endpointsOf entities (bare (.one .document) tree) = endpointsOf entities tree ∧
      ∀ other : Json, other.hasUniqueKeys = true →
        bare (.one .document) other = bare (.one .document) tree →
          endpointsOf entities other = endpointsOf entities tree := by
  refine ⟨endpointsOf_bare entities h, fun other hother hbare => ?_⟩
  rw [← endpointsOf_bare entities h, ← hbare, endpointsOf_bare entities hother]

/-- A document with an operation, and with members of any shape beside what is read. -/
def annotated : Json :=
  .object [("openapi", .string "3.1.0"),
    ("info", .object [("title", .string "Demo"), ("version", .number "3")]),
    ("servers", .object []),
    ("paths", .object [("/items/\x7bid\x7d", .object [("summary", .number "1"),
      ("put", .object [("operationId", .string "putItem"),
        ("description", .object [("long", .bool true)]),
        ("parameters", .array [.object [("name", .string "id"), ("in", .string "path"),
          ("required", .bool true), ("description", .number "1"),
          ("schema", .object [("type", .string "string"), ("description", .null)])]]),
        ("requestBody", .object [("required", .string "yes"),
          ("content", .object [("application/json", .object [
            ("schema", .object [("type", .string "array"),
              ("items", .object [("$ref", .string "#/components/schemas/Item"),
                ("description", .string "one of them")])]),
            ("example", .array [.number "1"])])])]),
        ("responses", .object [("200", .object [("description", .number "200")])])])])])]

/-- The document without them. -/
def plain : Json :=
  .object [("openapi", .string "3.1.0"), ("info", .object [("title", .string "Demo")]),
    ("paths", .object [("/items/\x7bid\x7d", .object [
      ("put", .object [("operationId", .string "putItem"),
        ("parameters", .array [.object [("name", .string "id"), ("in", .string "path"),
          ("required", .bool true), ("schema", .object [("type", .string "string")])]]),
        ("requestBody", .object [
          ("content", .object [("application/json", .object [
            ("schema", .object [("type", .string "array"),
              ("items", .object [("$ref", .string "#/components/schemas/Item")])])])])]),
        ("responses", .object [("200", .object [])])])])])]

theorem annotations_not_read_demo : annotated.hasUniqueKeys = true ∧
    bare (.one .document) annotated = plain ∧
    endpointsOf ["Item"] plain = endpointsOf ["Item"] annotated ∧
    (endpointsOf ["Item"] plain).toOption.map List.length = some 1 := by
  have hunique : annotated.hasUniqueKeys = true := by decide +kernel
  exact ⟨hunique, rfl, (annotations_not_read ["Item"] hunique).1, by decide +kernel⟩

end TypedClients.OpenApi
