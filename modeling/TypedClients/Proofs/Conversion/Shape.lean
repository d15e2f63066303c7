import TypedClients.Schema.Conversion
import TypedClients.Proofs.Outcome
import TypedClients.Proofs.Schema.Form

/-!
# What a converted node is made of

A conversion that succeeds yields a node, whatever memory it began in. `Shape` says how that node
is made of the nodes of the visited schemas, and `shape_of_yields` that a conversion yields nothing
else; `converts_induction` proves a property of all converted nodes from it, one case for each way
in which a node is made.

Which errors a conversion ends in, and what it leaves in the memory, is not said here.

## How it is used

What holds of all converted nodes is proved from `Shape`, with a case for a reference, a choice, a
typed schema and an untyped one, and below the typed one a case for each type (`TypeShape`). So no
proof about nodes goes through the definition of the conversion again, with its keywords and its
order. If a keyword is added, `shape_of_yields` has to be looked at, and the cases that the new form
adds.
-/

namespace TypedClients

namespace Conversion

variable {α β : Type}

/-- The computation can end in `a`, from some memory. -/
def Yields (action : Conversion α) (a : α) : Prop :=
  ∃ before after, action.run.run before = (.ok a, after)

theorem eq_of_yields_pure {a b : α} (h : Yields (pure a) b) : b = a := by
  obtain ⟨before, after, h⟩ := h
  cases h
  rfl

theorem not_yields_throw {e : ResolveError} {a : α} : ¬ Yields (throw e) a := by
  rintro ⟨before, after, h⟩
  cases h

theorem exists_of_yields_bind {x : Conversion α} {f : α → Conversion β} {b : β}
    (h : Yields (x >>= f) b) : ∃ a, Yields x a ∧ Yields (f a) b := by
  obtain ⟨before, after, h⟩ := h
  rw [run_bind] at h
  rcases hx : x.run.run before with ⟨e | a, middle⟩
  · rw [hx] at h
    cases h
  · rw [hx] at h
    exact ⟨a, ⟨before, middle, hx⟩, middle, after, h⟩

/-- A traversal yields what the computations of its elements yield, in order. -/
theorem forall₂_of_yields_mapM {f : α → Conversion β} {as : List α} {bs : List β}
    (h : Yields (as.mapM f) bs) : List.Forall₂ (fun a b => Yields (f a) b) as bs := by
  induction as generalizing bs with
  | nil =>
    obtain rfl := eq_of_yields_pure h
    exact .nil
  | cons a as ih =>
    rw [List.mapM_cons] at h
    obtain ⟨b, hb, h⟩ := exists_of_yields_bind h
    obtain ⟨rest, hrest, h⟩ := exists_of_yields_bind h
    obtain rfl := eq_of_yields_pure h
    exact .cons hb (ih hrest)

/-- Remembering a path while an action runs: the action begins with the path in the memory, and
what it leaves loses the path. -/
theorem run_remembering (path : String) (action : Conversion α) (before : List String) :
    (Converter.remembering path action).run.run before
      = ((action.run.run (path :: before)).1,
          (action.run.run (path :: before)).2.erase path) := by
  have hlift :
      (ExceptT.lift action.run : Conversion (Except ResolveError α)).run.run (path :: before)
        = (.ok (action.run.run (path :: before)).1, (action.run.run (path :: before)).2) := rfl
  unfold Converter.remembering
  rw [run_bind]
  show (ExceptT.lift action.run >>= fun outcome => _).run.run (path :: before) = _
  rw [run_bind, hlift]
  show (_ >>= fun _ => _ : Conversion α).run.run (action.run.run (path :: before)).2 = _
  rw [run_bind]
  rcases action.run.run (path :: before) with ⟨_ | a, after⟩ <;> rfl

/-- What is yielded while a path is remembered is yielded by the action itself. -/
theorem yields_of_yields_remembering {path : String} {action : Conversion α} {a : α}
    (h : Yields (Converter.remembering path action) a) : Yields action a := by
  obtain ⟨before, after, h⟩ := h
  rw [run_remembering, Prod.mk.injEq] at h
  exact ⟨path :: before, _, Prod.ext h.1 rfl⟩

end Conversion

open Conversion

/-! ### The conversion of a schema, by its form -/

section

variable (onRef : String → Conversion Node) (untyped : Primitive)

/-- The conversion of a schema as an array. -/
def convertArray (schema : Schema) : Conversion Node := do
  let items ← convertItems onRef untyped schema.items?
  pure (.array items)

/-- The conversion of a schema as an object. -/
def convertObject (schema : Schema) : Conversion Node := do
  let properties ← convertProperties onRef untyped schema.properties
  let additional ← convertAdditional onRef untyped schema.additionalProperties?
  pure (objectNode properties schema.required additional)

/-- The conversion of a schema as one of its types. -/
def convertNamed (schema : Schema) (type : TypeName) : Conversion Node :=
  convertType schema.title? (convertArray onRef untyped schema) (convertObject onRef untyped schema)
    type

/-- A schema is converted as its form says. -/
theorem convertWith_eq (schema : Schema) :
    convertWith onRef untyped schema = match schema.form with
      | .reference path => onRef path
      | .refused => throw (.unsupportedSchema (describeKeyword schema.title? "allOf"))
      | .choice members => do
        let nodes ← convertList onRef untyped members
        pure (.union nodes)
      | .typed (.one type) => convertNamed onRef untyped schema type
      | .typed (.several types) => do
        let nodes ← types.mapM (convertNamed onRef untyped schema)
        pure (.union nodes)
      | .untyped => pure (.prim untyped) := by
  cases schema with
  | ref path => rfl
  | inline type title properties required additional items allOf oneOf anyOf defs definitions =>
    rw [convertWith.eq_def]
    simp only [Schema.form]
    split
    · rfl
    split
    · rfl
    split
    · rfl
    rcases type with _ | ⟨type | types⟩
    · simp only [Schema.typesOf?]
      by_cases hmembers : (!properties.isEmpty || additional.any Additional.isTyped) = true
      · simp only [if_pos hmembers]
        rfl
      · simp only [if_neg hmembers]
    · rfl
    · rfl

end

/-! ### The node of a schema -/

/-- The node of a schema as one of its types, where `part` relates the visited schemas to their
nodes. -/
inductive TypeShape (part : Schema → Node → Prop) (schema : Schema) : TypeName → Node → Prop
  | string : TypeShape part schema .string (.prim .string)
  | number : TypeShape part schema .number (.prim .number)
  | integer : TypeShape part schema .integer (.prim .number)
  | boolean : TypeShape part schema .boolean (.prim .boolean)
  | null : TypeShape part schema .null (.prim .null)
  | anyItems (items : schema.items? = none) :
    TypeShape part schema .array (.array (.prim .unknown))
  | items {items : Schema} {node : Node} (found : schema.items? = some items)
      (node_items : part items node) : TypeShape part schema .array (.array node)
  | object {properties : List (String × Node)} {additional : Option Node}
      (declared : List.Forall₂ (fun p q => p.1 = q.1 ∧ part p.2 q.2) schema.properties properties)
      (others : Option.Rel part schema.values? additional) :
    TypeShape part schema .object (objectNode properties schema.required additional)

/-- The node of a type is made of those of the visited schemas alone. -/
theorem TypeShape.imp {part other : Schema → Node → Prop} {schema : Schema} {type : TypeName}
    {node : Node} (imp : ∀ inner m, schema.VisitsAs inner type → part inner m → other inner m)
    (h : TypeShape part schema type node) : TypeShape other schema type node := by
  cases h with
  | string => exact .string
  | number => exact .number
  | integer => exact .integer
  | boolean => exact .boolean
  | null => exact .null
  | anyItems items => exact .anyItems items
  | items found node_items => exact .items found (imp _ _ (.items found) node_items)
  | object declared others =>
    refine .object ?_ ?_
    · have hvisits : ∀ p ∈ schema.properties, schema.VisitsAs p.2 .object :=
        fun p hp => .property hp
      exact ((List.forall₂_and_left _ _).mpr ⟨hvisits, declared⟩).imp
        fun p q ⟨hp, hkey, hq⟩ => ⟨hkey, imp _ _ hp hq⟩
    · cases hvalues : schema.values? with
      | none =>
        rw [hvalues] at others
        cases others
        exact .none
      | some values =>
        rw [hvalues] at others
        obtain ⟨node, rfl, h⟩ := exists_some_right others
        exact .some (imp _ _ (.value hvalues) h)

/-- The node of a schema, where `part` relates the visited schemas to their nodes and `refers` the
references to theirs. -/
inductive Shape (part : Schema → Node → Prop) (refers : String → Node → Prop)
    (untyped : Primitive) (schema : Schema) : Node → Prop
  | reference {path : String} {node : Node} (form : schema.form = .reference path)
      (node_path : refers path node) : Shape part refers untyped schema node
  | choice {members : List Schema} {nodes : List Node} (form : schema.form = .choice members)
      (nodes_members : List.Forall₂ part members nodes) :
    Shape part refers untyped schema (.union nodes)
  | one {type : TypeName} {node : Node} (form : schema.form = .typed (.one type))
      (node_type : TypeShape part schema type node) : Shape part refers untyped schema node
  | several {types : List TypeName} {nodes : List Node}
      (form : schema.form = .typed (.several types))
      (nodes_types : List.Forall₂ (TypeShape part schema) types nodes) :
    Shape part refers untyped schema (.union nodes)
  | untyped (form : schema.form = .untyped) : Shape part refers untyped schema (.prim untyped)

/-- A node is made of those of the visited schemas and of the references alone. -/
theorem Shape.imp {part other : Schema → Node → Prop} {refers leads : String → Node → Prop}
    {untyped : Primitive} {schema : Schema} {node : Node}
    (imp : ∀ inner m, schema.Visits inner → part inner m → other inner m)
    (reference : ∀ path m, refers path m → leads path m)
    (h : Shape part refers untyped schema node) : Shape other leads untyped schema node := by
  cases h with
  | reference form node_path => exact .reference form (reference _ _ node_path)
  | choice form nodes_members =>
    refine .choice form ?_
    have hvisits : ∀ p ∈ _, schema.Visits p := fun p hp => .member form hp
    exact ((List.forall₂_and_left _ _).mpr ⟨hvisits, nodes_members⟩).imp
      fun p m ⟨hp, hm⟩ => imp p m hp hm
  | one form node_type =>
    exact .one form
      (node_type.imp fun inner m visit => imp inner m (.typed form List.mem_cons_self visit))
  | several form nodes_types =>
    refine .several form ?_
    exact ((List.forall₂_and_left _ _).mpr ⟨fun _ h => h, nodes_types⟩).imp
      fun type m ⟨htype, hm⟩ => hm.imp fun inner m visit => imp inner m (.typed form htype visit)
  | untyped form => exact .untyped form

section

variable {part : Schema → Node → Prop} {refers : String → Node → Prop} {untyped : Primitive}
  {schema : Schema} {node : Node}

/-- The node of a reference is what the reference comes to. -/
theorem Shape.of_reference {path : String} (h : Shape part refers untyped schema node)
    (hform : schema.form = .reference path) : refers path node := by
  cases h with
  | choice form | one form | several form | untyped form => cases form.symm.trans hform
  | reference form node_path =>
    cases form.symm.trans hform
    exact node_path

/-- The node of a choice is the union of those of its members. -/
theorem Shape.of_choice {members : List Schema} (h : Shape part refers untyped schema node)
    (hform : schema.form = .choice members) :
    ∃ nodes, node = .union nodes ∧ List.Forall₂ part members nodes := by
  cases h with
  | reference form | one form | several form | untyped form => cases form.symm.trans hform
  | choice form nodes_members =>
    cases form.symm.trans hform
    exact ⟨_, rfl, nodes_members⟩

/-- The node of a typed schema is that of its type, or the union of those of its types. -/
theorem Shape.of_typed {types : TypeSet} {type : TypeName}
    (h : Shape part refers untyped schema node) (hform : schema.form = .typed types)
    (mem : type ∈ types.names) : ∃ m, TypeShape part schema type m ∧
      (node = m ∨ ∃ nodes, node = .union nodes ∧ m ∈ nodes) := by
  cases h with
  | reference form | choice form | untyped form => cases form.symm.trans hform
  | one form node_type =>
    cases form.symm.trans hform
    obtain rfl := List.mem_singleton.mp mem
    exact ⟨node, node_type, .inl rfl⟩
  | several form nodes_types =>
    cases form.symm.trans hform
    obtain ⟨m, hm, hshape⟩ := exists_right nodes_types mem
    exact ⟨m, hshape, .inr ⟨_, rfl, hm⟩⟩

theorem Shape.of_untyped (h : Shape part refers untyped schema node)
    (hform : schema.form = .untyped) : node = .prim untyped := by
  cases h with
  | reference form | choice form | one form | several form => cases form.symm.trans hform
  | untyped => rfl

end

section

variable {onRef : String → Conversion Node} {untyped : Primitive}

/-- The conversion of `schema` can end in `node`. -/
def Converts (onRef : String → Conversion Node) (untyped : Primitive) (schema : Schema)
    (node : Node) : Prop :=
  Yields (convertWith onRef untyped schema) node

theorem forall₂_of_yields_convertList {members : List Schema} {nodes : List Node}
    (h : Yields (convertList onRef untyped members) nodes) :
    List.Forall₂ (Converts onRef untyped) members nodes := by
  induction members generalizing nodes with
  | nil =>
    obtain rfl := eq_of_yields_pure h
    exact .nil
  | cons member members ih =>
    obtain ⟨node, hnode, h⟩ := exists_of_yields_bind h
    obtain ⟨rest, hrest, h⟩ := exists_of_yields_bind h
    obtain rfl := eq_of_yields_pure h
    exact .cons hnode (ih hrest)

theorem forall₂_of_yields_convertProperties {properties : List (String × Schema)}
    {nodes : List (String × Node)} (h : Yields (convertProperties onRef untyped properties) nodes) :
    List.Forall₂ (fun p q => p.1 = q.1 ∧ Converts onRef untyped p.2 q.2) properties nodes := by
  induction properties generalizing nodes with
  | nil =>
    obtain rfl := eq_of_yields_pure h
    exact .nil
  | cons property properties ih =>
    obtain ⟨node, hnode, h⟩ := exists_of_yields_bind h
    obtain ⟨rest, hrest, h⟩ := exists_of_yields_bind h
    obtain rfl := eq_of_yields_pure h
    exact .cons ⟨rfl, hnode⟩ (ih hrest)

theorem rel_of_yields_convertAdditional {schema : Schema} {node : Option Node}
    (h : Yields (convertAdditional onRef untyped schema.additionalProperties?) node) :
    Option.Rel (Converts onRef untyped) schema.values? node := by
  unfold Schema.values?
  generalize schema.additionalProperties? = additional at h
  rcases additional with _ | ⟨allowed | values⟩
  · obtain rfl := eq_of_yields_pure h
    exact .none
  · obtain rfl := eq_of_yields_pure h
    exact .none
  · rw [convertAdditional.eq_def] at h
    simp only at h ⊢
    split at h
    · next huntyped =>
      obtain rfl := eq_of_yields_pure h
      rw [if_pos huntyped]
      exact .none
    · next huntyped =>
      obtain ⟨inner, hinner, h⟩ := exists_of_yields_bind h
      obtain rfl := eq_of_yields_pure h
      rw [if_neg huntyped]
      exact .some hinner

theorem typeShape_of_yields {schema : Schema} {type : TypeName} {node : Node}
    (h : Yields (convertNamed onRef untyped schema type) node) :
    TypeShape (Converts onRef untyped) schema type node := by
  cases type with
  | string => obtain rfl := eq_of_yields_pure h; exact .string
  | number => obtain rfl := eq_of_yields_pure h; exact .number
  | integer => obtain rfl := eq_of_yields_pure h; exact .integer
  | boolean => obtain rfl := eq_of_yields_pure h; exact .boolean
  | null => obtain rfl := eq_of_yields_pure h; exact .null
  | array =>
    obtain ⟨items, hitems, h⟩ := exists_of_yields_bind h
    obtain rfl := eq_of_yields_pure h
    cases hschema : schema.items? with
    | none =>
      rw [hschema] at hitems
      obtain rfl := eq_of_yields_pure hitems
      exact .anyItems hschema
    | some part =>
      rw [hschema] at hitems
      exact .items hschema hitems
  | object =>
    obtain ⟨properties, hproperties, h⟩ := exists_of_yields_bind h
    obtain ⟨additional, hadditional, h⟩ := exists_of_yields_bind h
    obtain rfl := eq_of_yields_pure h
    exact .object (forall₂_of_yields_convertProperties hproperties)
      (rel_of_yields_convertAdditional hadditional)
  | unsupported => exact absurd h not_yields_throw

/-- A conversion yields only what `Shape` allows. -/
theorem shape_of_yields {schema : Schema} {node : Node} (h : Converts onRef untyped schema node) :
    Shape (Converts onRef untyped) (fun path => Yields (onRef path)) untyped schema node := by
  rw [Converts, convertWith_eq] at h
  cases hform : schema.form with
  | reference path =>
    rw [hform] at h
    exact .reference hform h
  | refused =>
    rw [hform] at h
    exact absurd h not_yields_throw
  | choice members =>
    rw [hform] at h
    obtain ⟨nodes, hnodes, h⟩ := exists_of_yields_bind h
    obtain rfl := eq_of_yields_pure h
    exact .choice hform (forall₂_of_yields_convertList hnodes)
  | typed types =>
    rw [hform] at h
    cases types with
    | one type => exact .one hform (typeShape_of_yields h)
    | several types =>
      obtain ⟨nodes, hnodes, h⟩ := exists_of_yields_bind h
      obtain rfl := eq_of_yields_pure h
      exact .several hform
        ((forall₂_of_yields_mapM hnodes).imp fun _ _ => typeShape_of_yields)
  | untyped =>
    rw [hform] at h
    obtain rfl := eq_of_yields_pure h
    exact .untyped hform

/-- What a node has by the way in which it is made, given that those of the visited schemas have
it, every converted node has. -/
theorem converts_induction {P : Schema → Node → Prop}
    (step : ∀ schema node,
      Shape (fun part m => schema.Visits part ∧ Converts onRef untyped part m ∧ P part m)
        (fun path => Yields (onRef path)) untyped schema node → P schema node)
    {schema : Schema} {node : Node} (h : Converts onRef untyped schema node) : P schema node := by
  induction schema using Schema.visits_induction generalizing node with
  | step schema ih =>
    exact step schema node
      ((shape_of_yields h).imp (fun part m visit hm => ⟨visit, hm, ih part visit hm⟩)
        fun _ _ h => h)

end

end TypedClients
