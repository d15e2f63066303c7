import TypedClients.Proofs.Generation.ReferenceClosure
import TypedClients.Proofs.Name.Legal

/-!
# Planning

A plan says what the hook of an endpoint mentions and declares. To plan endpoints is to claim the
names of their declarations one after the other and, where that succeeds, to write the plans down.
Planning is a computation with the names that are taken so far as its state; that it separates into
claiming and writing (`Plan.ofEndpoints_eq`) is what the rest is proved from.

## What is proved

* Names can be claimed one after the other exactly if they differ from each other and from the names
  that are taken (`Plan.run_claimAll_pure_eq_ok_iff`). If they cannot, the error is the first name
  that is an entity's or an earlier declaration's.
* The plans are well scoped (`Plan.WellScoped`, `Plan.ofEndpoints_wellScoped`). No name is declared
  twice, none is an entity's, and every name can be declared. Each type that a hook mentions is an
  entity that is imported or a declaration of its own plan, with the shape that the endpoint has
  there. A response is parsed by the validator of its type.
* The names are those of the text: what is printed for a declaration declares its name as a constant
  and as a type (`Plan.declares_text`).

## What is assumed

The names of the operations are derived ones, and the shapes refer to nothing but the entities. For
the endpoints that are collected from a document the first holds by the way they are made, and the
second by what a conversion gives (`Endpoint.refersTo_of_ofDocument`). That the names of the hooks
themselves are legal is not claimed; they are keys of an object, and declare nothing.
-/

namespace TypedClients

/-! ### Claiming names -/

namespace Plan

/-- Claims names one after the other. -/
def claimAll (names : List String) : Planning Unit :=
  names.forM claim

/-- The names are different from each other and from those that are taken. -/
def Claimable (taken names : List String) : Prop :=
  names.Nodup ∧ ∀ name ∈ names, name ∉ taken

instance (taken names : List String) : Decidable (Claimable taken names) :=
  inferInstanceAs (Decidable (_ ∧ _))

theorem claimable_nil (taken : List String) : Claimable taken [] :=
  ⟨List.nodup_nil, fun _ h => absurd h List.not_mem_nil⟩

theorem claimable_cons {taken names : List String} {name : String} :
    Claimable taken (name :: names) ↔ name ∉ taken ∧ Claimable (name :: taken) names := by
  rw [Claimable, Claimable, List.nodup_cons, List.forall_mem_cons]
  simp only [List.mem_cons, not_or]
  constructor
  · rintro ⟨⟨hnew, hnodup⟩, hname, hrest⟩
    exact ⟨hname, hnodup, fun other hother => ⟨fun h => hnew (h ▸ hother), hrest other hother⟩⟩
  · rintro ⟨hname, hnodup, hrest⟩
    exact ⟨⟨fun h => (hrest name h).1 rfl, hnodup⟩, hname, fun other hother => (hrest other hother).2⟩

theorem claimable_append {taken first second : List String} :
    Claimable taken (first ++ second)
      ↔ Claimable taken first ∧ Claimable (first.reverse ++ taken) second := by
  induction first generalizing taken with
  | nil => simp [claimable_nil]
  | cons name first ih =>
    rw [List.cons_append, claimable_cons, claimable_cons, ih, List.reverse_cons, List.append_assoc,
      List.singleton_append, and_assoc]

theorem claimAll_append (first second : List String) :
    claimAll (first ++ second) = (do claimAll first; claimAll second) :=
  List.forM_append

theorem run_claimAll_cons (name : String) (names taken : List String) :
    (claimAll (name :: names)).run.run taken
      = if name ∈ taken then (.error ⟨name⟩, taken) else (claimAll names).run.run (name :: taken) := by
  show ((if name ∈ taken then throw ⟨name⟩ else set (name :: taken) : Planning Unit)
    >>= fun _ => claimAll names).run.run taken = _
  split <;> rfl

/-- Names are claimed if they can be; otherwise the first that cannot is the error. -/
theorem outcome_claimAll (names taken : List String) :
    match ((claimAll names).run.run taken).1 with
    | .ok () => Claimable taken names
    | .error clash => ∃ earlier later, names = earlier ++ clash.what :: later ∧
        Claimable taken earlier ∧ (clash.what ∈ taken ∨ clash.what ∈ earlier) := by
  induction names generalizing taken with
  | nil => exact claimable_nil taken
  | cons name names ih =>
    rw [run_claimAll_cons]
    by_cases h : name ∈ taken
    · rw [if_pos h]
      exact ⟨[], names, rfl, claimable_nil taken, .inl h⟩
    · rw [if_neg h]
      have ih := ih (name :: taken)
      split at ih
      · exact claimable_cons.mpr ⟨h, ih⟩
      · obtain ⟨earlier, later, rfl, hearlier, hclash⟩ := ih
        refine ⟨name :: earlier, later, rfl, claimable_cons.mpr ⟨h, hearlier⟩, ?_⟩
        rcases hclash with hclash | hclash
        · rcases List.mem_cons.mp hclash with hclash | hclash
          · exact .inr (hclash ▸ List.mem_cons_self)
          · exact .inl hclash
        · exact .inr (List.mem_cons_of_mem _ hclash)

/-- Which names can be claimed does not depend on their order. -/
theorem claimable_perm {taken first second : List String} (h : first.Perm second) :
    Claimable taken first ↔ Claimable taken second :=
  and_congr h.nodup_iff (forall_congr' fun _ => imp_congr_left h.mem_iff)

/-- Of names that can be claimed, some can be claimed alone. -/
theorem Claimable.sublist {taken names others : List String} (h : Claimable taken names)
    (hsub : others.Sublist names) : Claimable taken others :=
  ⟨h.1.sublist hsub, fun name hname => h.2 name (hsub.subset hname)⟩

theorem claimAll_eq_ok_iff {names taken : List String} :
    ((claimAll names).run.run taken).1 = .ok () ↔ Claimable taken names := by
  induction names generalizing taken with
  | nil => exact iff_of_true rfl (claimable_nil taken)
  | cons name names ih =>
    rw [run_claimAll_cons, claimable_cons]
    by_cases h : name ∈ taken
    · rw [if_pos h]
      exact iff_of_false (by simp) fun hclaimable => hclaimable.1 h
    · rw [if_neg h, ih]
      exact (and_iff_right h).symm

/-! ### What an endpoint declares -/

/-- The shape of the parameters, if there are any. -/
def paramsShape? (parameters : List EndpointParameter) : Option Node :=
  if parameters.isEmpty then none else some (paramsShape parameters)

/-- The type that is mentioned for a shape. -/
def typeOf? (name : String) : Option Node → Option String
  | none => none
  | some (.ref entity) => some entity
  | some _ => some name

/-- The declaration of a shape that is not an entity. -/
def declarationsFor (name : String) : Option Node → List Declaration
  | none => []
  | some (.ref _) => []
  | some shape => [⟨name, shape⟩]

end Plan

namespace Endpoint

/-- The declarations that the endpoint needs. -/
def declarations (endpoint : Endpoint) : List Declaration :=
  Plan.declarationsFor (endpoint.name.versioned ++ "Params") (Plan.paramsShape? endpoint.parameters)
    ++ Plan.declarationsFor (endpoint.name.versioned ++ "Body") endpoint.body
    ++ Plan.declarationsFor (endpoint.name.versioned ++ "Resp") endpoint.response

/-- The names that the endpoint declares, in the order in which they are claimed. -/
def declaredNames (endpoint : Endpoint) : List String :=
  endpoint.declarations.map Declaration.name

/-- The names of the endpoint are derived, from an id or from its route. -/
def Derived (endpoint : Endpoint) : Prop :=
  ∃ id, endpoint.name = OperationName.derive id endpoint.method endpoint.path

end Endpoint

namespace Plan

/-- The plan of an endpoint whose names can be claimed. -/
def outline (endpoint : Endpoint) : Plan :=
  let versioned := endpoint.name.versioned
  let responseType := typeOf? (versioned ++ "Resp") endpoint.response
  { endpoint := endpoint
    hook := Name.hook endpoint.name.name
    paramsType := typeOf? (versioned ++ "Params") (paramsShape? endpoint.parameters)
    bodyType := typeOf? (versioned ++ "Body") endpoint.body
    responseType := responseType.getD "void"
    parseFn := responseType.map fun t => t ++ ".parse"
    declarations := endpoint.declarations }

theorem typeFor_eq (name : String) (shape : Option Node) :
    typeFor name shape = (do
      claimAll ((declarationsFor name shape).map Declaration.name)
      pure (typeOf? name shape, declarationsFor name shape)) := by
  rcases shape with _ | shape
  · simp [typeFor, typeOf?, declarationsFor, claimAll]
  · cases shape
    all_goals simp [typeFor, typeOf?, declarationsFor, claimAll, declare]

/-- The parameters are declared like a body of their shape. -/
theorem ofEndpoint_eq_typeFor (endpoint : Endpoint) :
    ofEndpoint endpoint = (do
      let (paramsType, params) ←
        typeFor (endpoint.name.versioned ++ "Params") (paramsShape? endpoint.parameters)
      let (bodyType, body) ← typeFor (endpoint.name.versioned ++ "Body") endpoint.body
      let (responseType, response) ← typeFor (endpoint.name.versioned ++ "Resp") endpoint.response
      pure
        { endpoint := endpoint
          hook := Name.hook endpoint.name.name
          paramsType := paramsType
          bodyType := bodyType
          responseType := responseType.getD "void"
          parseFn := responseType.map fun t => t ++ ".parse"
          declarations := params ++ body ++ response }) := by
  unfold ofEndpoint paramsShape?
  cases endpoint.parameters.isEmpty with
  | true => simp only [if_true, typeFor, pure_bind]
  | false => simp only [Bool.false_eq_true, if_false, typeFor, paramsShape, bind_assoc, pure_bind]

/-- To plan an endpoint is to claim the names that it declares. -/
theorem ofEndpoint_eq (endpoint : Endpoint) :
    ofEndpoint endpoint = (do
      claimAll endpoint.declaredNames
      pure (outline endpoint)) := by
  simp only [ofEndpoint_eq_typeFor, typeFor_eq, bind_assoc, pure_bind]
  rw [Endpoint.declaredNames, Endpoint.declarations, List.map_append, List.map_append,
    claimAll_append, claimAll_append, bind_assoc, bind_assoc]
  rfl

/-- To plan endpoints is to claim the names that they declare. -/
theorem ofEndpoints_eq (endpoints : List Endpoint) :
    ofEndpoints endpoints = (do
      claimAll (endpoints.flatMap Endpoint.declaredNames)
      pure (endpoints.map outline)) := by
  induction endpoints with
  | nil => rfl
  | cons endpoint endpoints ih =>
    rw [ofEndpoints] at ih ⊢
    rw [List.mapM_cons, ih, ofEndpoint_eq, List.flatMap_cons, claimAll_append]
    simp only [bind_assoc, pure_bind, List.map_cons]

theorem run_claimAll_pure_eq_ok_iff {α : Type} {names taken : List String} {a b : α} :
    ((do claimAll names; pure a : Planning α).run.run taken).1 = .ok b
      ↔ Claimable taken names ∧ b = a := by
  rw [run_bind, ← claimAll_eq_ok_iff]
  rcases (claimAll names).run.run taken with ⟨clash | claimed, after⟩
  · exact iff_of_false (by simp) (by simp)
  · constructor
    · intro h
      cases h
      exact ⟨rfl, rfl⟩
    · rintro ⟨-, rfl⟩
      rfl

/-- An endpoint is planned if what it declares can be claimed. -/
theorem ofEndpoint_eq_ok_iff {endpoint : Endpoint} {plan : Plan} {taken : List String} :
    ((ofEndpoint endpoint).run.run taken).1 = .ok plan
      ↔ Claimable taken endpoint.declaredNames ∧ plan = outline endpoint := by
  rw [ofEndpoint_eq, run_claimAll_pure_eq_ok_iff]

/-- Endpoints are planned if what they declare can be claimed. -/
theorem ofEndpoints_eq_ok_iff {endpoints : List Endpoint} {plans : List Plan}
    {taken : List String} :
    ((ofEndpoints endpoints).run.run taken).1 = .ok plans
      ↔ Claimable taken (endpoints.flatMap Endpoint.declaredNames)
          ∧ plans = endpoints.map outline := by
  rw [ofEndpoints_eq, run_claimAll_pure_eq_ok_iff]

/-! ### What a plan mentions -/

/-- In the plan the type says what the shape does: it is the entity that the shape is a reference to,
which is imported, or the plan declares it as the shape. -/
def Names (imports : List String) (plan : Plan) (type : String) (shape : Node) : Prop :=
  shape = .ref type ∧ type ∈ imports ∨ ⟨type, shape⟩ ∈ plan.declarations

variable {imports : List String}

theorem rel_typeOf? {plan : Plan} {name : String} {shape : Option Node}
    (imported : ∀ entity, shape = some (.ref entity) → entity ∈ imports)
    (declares : declarationsFor name shape ⊆ plan.declarations) :
    Option.Rel (plan.Names imports) (typeOf? name shape) shape := by
  rcases shape with _ | node
  · exact .none
  · cases node with
    | ref entity => exact .some (.inl ⟨rfl, imported entity rfl⟩)
    | object | array | union | prim => exact .some (.inr (declares List.mem_cons_self))

theorem mem_declarationsFor {name : String} {shape : Option Node} {declaration : Declaration}
    (h : declaration ∈ declarationsFor name shape) : declaration.name = name := by
  unfold declarationsFor at h
  split at h
  · cases h
  · cases h
  · obtain rfl := List.mem_singleton.mp h
    rfl

/-- The names that are declared for an endpoint can be declared. -/
theorem isLegal_of_mem_declaredNames {endpoint : Endpoint} (derived : endpoint.Derived)
    {name : String} (h : name ∈ endpoint.declaredNames) : Name.IsLegal name := by
  obtain ⟨id, hname⟩ := derived
  obtain ⟨declaration, hdeclaration, rfl⟩ := List.mem_map.mp h
  simp only [Endpoint.declarations, List.mem_append, hname, OperationName.derive] at hdeclaration
  rcases hdeclaration with (hparams | hbody) | hresponse
  · rw [mem_declarationsFor hparams]
    exact Name.isLegal_append (by decide) (by decide) _
  · rw [mem_declarationsFor hbody]
    exact Name.isLegal_append (by decide) (by decide) _
  · rw [mem_declarationsFor hresponse]
    exact Name.isLegal_append (by decide) (by decide) _

/-- The text declares a name twice over: as a constant with the given value, and as the type that is
inferred from the constant. -/
def Declares (text name value : String) : Prop :=
  text = "const " ++ name ++ " = " ++ value ++ ";\n"
    ++ ("type " ++ name ++ " = z.infer<typeof " ++ name ++ ">;")

theorem declares_text (declaration : Declaration) :
    Declares declaration.text declaration.name (declaration.shape.validator .bare) := by
  have htype : ∀ rest : String, ";\ntype " ++ rest = ";\n" ++ ("type " ++ rest) := by
    intro rest
    simp only [← String.append_assoc, String.reduceAppend]
  simp only [Declares, Declaration.text, String.append_assoc, htype]

/-- What plans of endpoints declare and mention, where the entities are imported. -/
structure WellScoped (imports : List String) (endpoints : List Endpoint) (plans : List Plan) :
    Prop where
  /-- The plans are those of the endpoints, and each declares what its endpoint needs. -/
  planned : plans.map (fun plan => (plan.endpoint, plan.declarations))
    = endpoints.map fun endpoint => (endpoint, endpoint.declarations)
  /-- No name is declared twice, and no entity is declared again. -/
  claimable : Claimable imports (plans.flatMap fun plan => plan.declarations.map Declaration.name)
  legal : ∀ plan ∈ plans, ∀ declaration ∈ plan.declarations, Name.IsLegal declaration.name
  /-- These are the names that the text of the declarations declares. -/
  printed : ∀ plan ∈ plans, ∀ declaration ∈ plan.declarations,
    Declares declaration.text declaration.name (declaration.shape.validator .bare)
  params : ∀ plan ∈ plans, Option.Rel (plan.Names imports) plan.paramsType
    (paramsShape? plan.endpoint.parameters)
  body : ∀ plan ∈ plans, Option.Rel (plan.Names imports) plan.bodyType plan.endpoint.body
  /-- A response is parsed by the validator of its type; without one there is nothing to parse. -/
  response : ∀ plan ∈ plans, match plan.endpoint.response with
    | some shape => plan.Names imports plan.responseType shape ∧
        plan.parseFn = some (plan.responseType ++ ".parse")
    | none => plan.responseType = "void" ∧ plan.parseFn = none

theorem params_outline (endpoint : Endpoint) :
    Option.Rel ((outline endpoint).Names imports) (outline endpoint).paramsType
      (paramsShape? endpoint.parameters) := by
  refine rel_typeOf? (fun entity h => ?_) ?_
  · simp [paramsShape?, paramsShape] at h
  · intro declaration h
    exact List.mem_append_left _ (List.mem_append_left _ h)

theorem body_outline {endpoint : Endpoint}
    (refers : ∀ shape ∈ endpoint.shapes, shape.RefersTo imports) :
    Option.Rel ((outline endpoint).Names imports) (outline endpoint).bodyType endpoint.body := by
  refine rel_typeOf? (fun entity h => ?_) ?_
  · refine refers (.ref entity) ?_ entity (by simp [Node.mentions])
    simp [Endpoint.shapes, h]
  · intro declaration h
    exact List.mem_append_left _ (List.mem_append_right _ h)

theorem response_outline {endpoint : Endpoint}
    (refers : ∀ shape ∈ endpoint.shapes, shape.RefersTo imports) :
    match endpoint.response with
    | some shape => (outline endpoint).Names imports (outline endpoint).responseType shape ∧
        (outline endpoint).parseFn = some ((outline endpoint).responseType ++ ".parse")
    | none => (outline endpoint).responseType = "void" ∧ (outline endpoint).parseFn = none := by
  have hrel : Option.Rel ((outline endpoint).Names imports)
      (typeOf? (endpoint.name.versioned ++ "Resp") endpoint.response) endpoint.response := by
    refine rel_typeOf? (fun entity h => ?_) ?_
    · refine refers (.ref entity) ?_ entity (by simp [Node.mentions])
      simp [Endpoint.shapes, h]
    · intro declaration h
      exact List.mem_append_right _ h
  split
  · next shape hshape =>
    rw [hshape] at hrel
    obtain ⟨type, htype, hnames⟩ := exists_some_left hrel
    have hresponse : (outline endpoint).responseType = type := by
      simp only [outline, hshape, htype, Option.getD_some]
    refine ⟨hresponse ▸ hnames, ?_⟩
    simp only [outline, hshape, htype, Option.map_some, Option.getD_some]
  · next hnone => simp only [outline, hnone, typeOf?, Option.getD_none, Option.map_none, and_self]

/-- The plans of endpoints whose names can be claimed. -/
theorem wellScoped_outlines {endpoints : List Endpoint}
    (derived : ∀ endpoint ∈ endpoints, endpoint.Derived)
    (refers : ∀ endpoint ∈ endpoints, ∀ shape ∈ endpoint.shapes, shape.RefersTo imports)
    (claimable : Claimable imports (endpoints.flatMap Endpoint.declaredNames)) :
    WellScoped imports endpoints (endpoints.map outline) where
  planned := by
    rw [List.map_map]
    rfl
  claimable := by
    rw [List.flatMap_map]
    exact claimable
  legal := by
    rw [List.forall_mem_map]
    intro endpoint hendpoint declaration hdeclaration
    exact isLegal_of_mem_declaredNames (derived endpoint hendpoint) (List.mem_map_of_mem hdeclaration)
  printed _ _ declaration _ := declares_text declaration
  params := List.forall_mem_map.mpr fun endpoint _ => params_outline endpoint
  body := List.forall_mem_map.mpr fun endpoint hendpoint => body_outline (refers endpoint hendpoint)
  response :=
    List.forall_mem_map.mpr fun endpoint hendpoint => response_outline (refers endpoint hendpoint)

/-- Endpoints are planned if the names that they declare are new and different from each other.
Otherwise the error is the first that is not: an entity's name, or one that is declared before. -/
theorem ofEndpoints_wellScoped {endpoints : List Endpoint}
    (derived : ∀ endpoint ∈ endpoints, endpoint.Derived)
    (refers : ∀ endpoint ∈ endpoints, ∀ shape ∈ endpoint.shapes, shape.RefersTo imports) :
    match ((ofEndpoints endpoints).run.run imports).1 with
    | .ok plans => WellScoped imports endpoints plans
    | .error clash => ∃ earlier later,
        endpoints.flatMap Endpoint.declaredNames = earlier ++ clash.what :: later ∧
          Claimable imports earlier ∧ (clash.what ∈ imports ∨ clash.what ∈ earlier) := by
  have houtcome := outcome_claimAll (endpoints.flatMap Endpoint.declaredNames) imports
  rw [ofEndpoints_eq, run_bind]
  rcases hclaims : (claimAll (endpoints.flatMap Endpoint.declaredNames)).run.run imports with
    ⟨clash | claimed, after⟩
  · rw [hclaims] at houtcome
    exact houtcome
  · rw [hclaims] at houtcome
    exact wellScoped_outlines derived refers houtcome

/-- To list pets, and to add one. -/
def pets : List Endpoint :=
  [{ tag := "pets"
     method := .get
     path := "/pets"
     name := OperationName.derive (some "listPets_v2") .get "/pets"
     summary := none
     parameters := [⟨"limit", .prim .number, false⟩]
     body := none
     response := some (.array (.ref "Pet")) },
   { tag := "pets"
     method := .post
     path := "/pets"
     name := OperationName.derive none .post "/pets"
     summary := none
     parameters := []
     body := some (.ref "Pet")
     response := none }]

theorem ofEndpoints_wellScoped_pets :
    pets.flatMap Endpoint.declaredNames = ["ListPets2Params", "ListPets2Resp"] ∧
      ((ofEndpoints pets).run.run ["Pet"]).1 = .ok (pets.map outline) ∧
        WellScoped ["Pet"] pets (pets.map outline) := by
  have hderived : ∀ endpoint ∈ pets, endpoint.Derived := by
    rw [pets, List.forall_mem_cons, List.forall_mem_singleton]
    exact ⟨⟨some "listPets_v2", rfl⟩, none, rfl⟩
  have hrefers : ∀ endpoint ∈ pets, ∀ shape ∈ endpoint.shapes, shape.RefersTo ["Pet"] := by
    rw [pets, List.forall_mem_cons, List.forall_mem_singleton]
    constructor
    · intro shape hshape name hname
      obtain rfl | rfl : shape = .prim .number ∨ shape = .array (.ref "Pet") := by
        simpa [Endpoint.shapes] using hshape
      · cases hname
      · simpa [Node.mentions] using hname
    · intro shape hshape name hname
      obtain rfl : shape = .ref "Pet" := by simpa [Endpoint.shapes] using hshape
      simpa [Node.mentions] using hname
  have hrun : ((ofEndpoints pets).run.run ["Pet"]).1 = .ok (pets.map outline) := rfl
  have h := ofEndpoints_wellScoped hderived hrefers
  rw [hrun] at h
  exact ⟨by decide, hrun, h⟩

end Plan

end TypedClients
