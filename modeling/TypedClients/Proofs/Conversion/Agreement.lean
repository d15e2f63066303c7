import TypedClients.Proofs.Conversion.Shape
import TypedClients.Proofs.Node.Alike
import TypedClients.Proofs.Schema.Place

/-!
# Conversions that agree

Two conversions agree, each in a memory of its own, if both succeed with related results or both fail
for the same reason, and each leaves its memory as it was (`Agree`). Sequencing keeps this. So if the
parts of two parallel schemas are converted to alike nodes, the schemas are (`agree_of_parallel`);
and where two treatments of references agree on those in a schema, the conversions of the schema do
(`agree_of_refs`), also if something in the schema is replaced that is converted alike
(`agree_putAt`).

## What agreement is for

The two conversions may be in different files, with different converters and in different memories.
That is why the relation is one of outcomes and not of computations, and why each side says what it
leaves of its own memory. It is used with two pairs of conversions: of one schema in two files, and
of a schema with a part and with a reference in the part's place.

## What is not here

Why two treatments of references agree. Here that is an assumption (`AgreeInside`), and the modules
that have two files to compare prove it of them.
-/

namespace TypedClients

/-- Both succeed, with related results, or both fail for the same reason. -/
inductive SameOutcome {α β : Type} (rel : α → β → Prop) :
    Except ResolveError α → Except ResolveError β → Prop
  | ok {a : α} {b : β} (related : rel a b) : SameOutcome rel (.ok a) (.ok b)
  | error (e : ResolveError) : SameOutcome rel (.error e) (.error e)

/-- The computations end in the same way, each in its memory, and leave it as it is. -/
structure Agree {α β : Type} (rel : α → β → Prop) (memory memory' : List String)
    (x : Conversion α) (y : Conversion β) : Prop where
  restores : (x.run.run memory).2 = memory
  restores' : (y.run.run memory').2 = memory'
  outcome : SameOutcome rel (x.run.run memory).1 (y.run.run memory').1

variable {memory memory' : List String}

section

variable {α β γ δ : Type} {rel : α → β → Prop} {rel' : γ → δ → Prop}

theorem agree_pure {a : α} {b : β} (h : rel a b) : Agree rel memory memory' (pure a) (pure b) :=
  ⟨rfl, rfl, .ok h⟩

theorem agree_throw (e : ResolveError) :
    Agree rel memory memory' (throw e : Conversion α) (throw e : Conversion β) :=
  ⟨rfl, rfl, .error e⟩

theorem Agree.bind {x : Conversion α} {y : Conversion β} {f : α → Conversion γ}
    {g : β → Conversion δ} (first : Agree rel memory memory' x y)
    (rest : ∀ a b, rel a b → Agree rel' memory memory' (f a) (g b)) :
    Agree rel' memory memory' (x >>= f) (y >>= g) := by
  obtain ⟨hx, hy, houtcome⟩ := first
  rcases hrunx : x.run.run memory with ⟨outcome, after⟩
  rcases hruny : y.run.run memory' with ⟨outcome', after'⟩
  rw [hrunx] at hx houtcome
  rw [hruny] at hy houtcome
  obtain rfl : after = memory := hx
  obtain rfl : after' = memory' := hy
  cases houtcome with
  | error e => exact ⟨by rw [run_bind, hrunx], by rw [run_bind, hruny],
      by rw [run_bind, hrunx, run_bind, hruny]; exact .error e⟩
  | ok related =>
    obtain ⟨hf, hg, houtcome⟩ := rest _ _ related
    exact ⟨by rw [run_bind, hrunx]; exact hf, by rw [run_bind, hruny]; exact hg,
      by rw [run_bind, hrunx, run_bind, hruny]; exact houtcome⟩

theorem Agree.mapM {items : List γ} {f : γ → Conversion α} {g : γ → Conversion β}
    (h : ∀ item ∈ items, Agree rel memory memory' (f item) (g item)) :
    Agree (List.Forall₂ rel) memory memory' (items.mapM f) (items.mapM g) := by
  induction items with
  | nil => exact agree_pure .nil
  | cons item items ih =>
    rw [List.forall_mem_cons] at h
    rw [List.mapM_cons, List.mapM_cons]
    exact h.1.bind fun _ _ hab => (ih h.2).bind fun _ _ hrest => agree_pure (.cons hab hrest)

end

/-! ### Parallel schemas -/

/-- The values outside the properties are converted where they are constrained. -/
theorem convertAdditional_eq (onRef : String → Conversion Node) (untyped : Primitive)
    (schema : Schema) :
    convertAdditional onRef untyped schema.additionalProperties? = match schema.values? with
      | some values => do
        let node ← convertWith onRef untyped values
        pure (some node)
      | none => pure none := by
  unfold Schema.values?
  rcases schema.additionalProperties? with _ | ⟨flag | values⟩
  · rfl
  · rfl
  · rw [convertAdditional.eq_def]
    dsimp only
    split <;> rfl

section

variable {onRef onRef' : String → Conversion Node} {schema other part : Schema}

/-- The schemas are converted to alike nodes, each with its treatment of references, in an entity
file. -/
def Converted (onRef onRef' : String → Conversion Node) (memory memory' : List String)
    (schema other : Schema) : Prop :=
  Agree Node.Alike memory memory' (convertWith onRef .unknown schema)
    (convertWith onRef' .unknown other)

/-- The schema is converted, without a failure, to a node that is like the one of no constraint. -/
def IsAnything (onRef' : String → Conversion Node) (memory memory' : List String)
    (schema : Schema) : Prop :=
  Agree (fun (_ : Unit) node => Node.Alike (.prim .unknown) node) memory memory' (pure ())
    (convertWith onRef' .unknown schema)

theorem agree_convertList {members others : List Schema}
    (h : List.Forall₂ (Converted onRef onRef' memory memory') members others) :
    Agree (List.Forall₂ Node.Alike) memory memory' (convertList onRef .unknown members)
      (convertList onRef' .unknown others) := by
  induction h with
  | nil => exact agree_pure .nil
  | cons hmember _ ih =>
    exact Agree.bind hmember fun _ _ hnode => ih.bind fun _ _ hnodes =>
      agree_pure (.cons hnode hnodes)

theorem agree_convertProperties {properties properties' : List (String × Schema)}
    (h : List.Forall₂ (fun p q => p.1 = q.1 ∧ Converted onRef onRef' memory memory' p.2 q.2)
      properties properties') :
    Agree Node.PropertiesAlike memory memory' (convertProperties onRef .unknown properties)
      (convertProperties onRef' .unknown properties') := by
  induction h with
  | nil => exact agree_pure .nil
  | cons hproperty _ ih =>
    exact Agree.bind hproperty.2 fun _ _ hnode => ih.bind fun _ _ hnodes =>
      agree_pure (.cons ⟨hproperty.1, hnode⟩ hnodes)

theorem agree_convertAdditional
    (h : Option.Rel (Converted onRef onRef' memory memory') schema.values? other.values? ∨
      schema.values? = none ∧
        ∃ values, other.values? = some values ∧ IsAnything onRef' memory memory' values) :
    Agree Node.ValuesAlike memory memory'
      (convertAdditional onRef .unknown schema.additionalProperties?)
      (convertAdditional onRef' .unknown other.additionalProperties?) := by
  rw [convertAdditional_eq, convertAdditional_eq]
  rcases h with h | ⟨hnone, values, hvalues, hanything⟩
  · generalize schema.values? = values at h ⊢
    generalize other.values? = values' at h ⊢
    cases h with
    | none => exact agree_pure Node.valuesAlike_none_none
    | some h => exact Agree.bind h fun _ _ hnode => agree_pure hnode.some
  · rw [hnone, hvalues]
    show Agree _ memory memory' (pure () >>= fun _ => pure none) _
    exact Agree.bind hanything fun _ _ hnode => agree_pure (Node.valuesAlike_none hnode)

theorem agree_convertNamed (h : Schema.Parallel (Converted onRef onRef' memory memory')
    (IsAnything onRef' memory memory') schema other) (type : TypeName) :
    Agree Node.Alike memory memory' (convertNamed onRef .unknown schema type)
      (convertNamed onRef' .unknown other type) := by
  cases type with
  | string | number | integer | boolean | null => exact agree_pure (Node.Alike.refl _)
  | unsupported =>
    rw [convertNamed, convertNamed, h.title]
    exact agree_throw _
  | array =>
    have hitems : Agree Node.Alike memory memory' (convertItems onRef .unknown schema.items?)
        (convertItems onRef' .unknown other.items?) := by
      have hrel := h.items
      generalize schema.items? = items at hrel ⊢
      generalize other.items? = items' at hrel ⊢
      cases hrel with
      | none => exact agree_pure (Node.Alike.refl _)
      | some hitems => exact hitems
    exact hitems.bind fun _ _ hnode => agree_pure hnode.array
  | object =>
    refine (agree_convertProperties h.properties).bind fun _ _ hproperties =>
      (agree_convertAdditional h.values).bind fun _ _ hvalues => agree_pure ?_
    rw [h.required]
    exact Node.alike_objectNode other.required hproperties hvalues

/-- Parallel schemas are converted alike if their parts are. -/
theorem agree_of_parallel (h : Schema.Parallel (Converted onRef onRef' memory memory')
    (IsAnything onRef' memory memory') schema other) :
    Converted onRef onRef' memory memory' schema other := by
  rw [Converted, convertWith_eq, convertWith_eq]
  have hform := h.form
  generalize schema.form = form at hform ⊢
  generalize other.form = form' at hform ⊢
  cases hform with
  | refused =>
    rw [h.title]
    exact agree_throw _
  | choice members_others =>
    exact (agree_convertList members_others).bind fun _ _ hnodes =>
      agree_pure (Node.alike_union hnodes)
  | typed types =>
    cases types with
    | one type => exact agree_convertNamed h type
    | several types =>
      exact (Agree.mapM fun type _ => agree_convertNamed h type).bind fun _ _ hnodes =>
        agree_pure (Node.alike_union hnodes)
  | untyped => exact agree_pure (Node.Alike.refl _)

/-! ### The references in a schema -/

/-- The treatments agree on every reference that stands in the schema. -/
def AgreeInside (onRef onRef' : String → Conversion Node) (memory memory' : List String)
    (schema : Schema) : Prop :=
  ∀ place path, schema.at? place = some (.ref path) →
    Agree Node.Alike memory memory' (onRef path) (onRef' path)

theorem AgreeInside.inside {step : Schema.Step} (h : AgreeInside onRef onRef' memory memory' schema)
    (hpart : schema.inside? step = some part) : AgreeInside onRef onRef' memory memory' part :=
  fun place path hpath =>
    h (step :: place) path (Schema.at?_cons_eq_some_iff.mpr ⟨part, hpart, hpath⟩)

/-- Treatments that agree on the references in a schema convert it alike. -/
theorem agree_of_refs (h : AgreeInside onRef onRef' memory memory' schema) :
    Converted onRef onRef' memory memory' schema schema := by
  induction schema using Schema.inside_induction with
  | step schema ih =>
    by_cases href : ∃ path, schema = .ref path
    · obtain ⟨path, rfl⟩ := href
      exact h [] path rfl
    · rw [not_exists] at href
      exact agree_of_parallel
        (Schema.parallel_self href fun step part hpart => ih step part hpart (h.inside hpart))

/-! ### Replacing a part -/

/-- The part at the place may be replaced by a reference: if it is an untyped schema for the members
outside the properties of another one, it says nothing at all, and the other one has a shape without
it. -/
def Harmless (schema part : Schema) (place : List Schema.Step) : Prop :=
  part.isUntyped = true → ∀ outer parent, place = outer ++ [.values] →
    schema.at? outer = some parent → part.form = .untyped ∧ parent.form ≠ .untyped

theorem Harmless.inside {step : Schema.Step} {rest : List Schema.Step} {inner : Schema}
    (h : Harmless schema part (step :: rest)) (hinner : schema.inside? step = some inner) :
    Harmless inner part rest := by
  intro huntyped outer parent houter hparent
  refine h huntyped (step :: outer) parent (by rw [houter, List.cons_append]) ?_
  exact Schema.at?_cons_eq_some_iff.mpr ⟨inner, hinner, hparent⟩

theorem isAnything_of_untyped {path : String} (hform : part.form = .untyped)
    (h : Agree Node.Alike memory memory' (convertWith onRef .unknown part) (onRef' path)) :
    IsAnything onRef' memory memory' (.ref path) := by
  have hrun : (convertWith onRef .unknown part).run.run memory
      = (.ok (.prim .unknown), memory) := by
    rw [convertWith_eq, hform]
    rfl
  obtain ⟨-, hrestores, houtcome⟩ := h
  rw [hrun] at houtcome
  refine ⟨rfl, hrestores, ?_⟩
  show SameOutcome _ (.ok ()) ((onRef' path).run.run memory').1
  generalize ((onRef' path).run.run memory').1 = outcome at houtcome ⊢
  cases houtcome with
  | ok related => exact .ok related

/-- A schema is converted like one in which a part is replaced by a reference that is converted like
the part. -/
theorem agree_putAt {place : List Schema.Step} {path : String}
    (hrefs : AgreeInside onRef onRef' memory memory' schema) (hpart : schema.at? place = some part)
    (hpath : Agree Node.Alike memory memory' (convertWith onRef .unknown part) (onRef' path))
    (hharmless : Harmless schema part place) :
    Converted onRef onRef' memory memory' schema (schema.putAt place (.ref path)) := by
  induction place generalizing schema with
  | nil =>
    cases hpart
    exact hpath
  | cons step rest ih =>
    obtain ⟨inner, hinner, hrest⟩ := Schema.at?_cons_eq_some_iff.mp hpart
    have hconverted := ih (hrefs.inside hinner) hrest (hharmless.inside hinner)
    rw [Schema.putAt_cons hinner]
    refine agree_of_parallel (Schema.parallel_put hinner hconverted
      (fun step part hpart => agree_of_refs (hrefs.inside hpart)) ?_)
    rintro rfl
    cases rest with
    | cons step rest =>
      obtain ⟨innermost, hinnermost, -⟩ := Schema.at?_cons_eq_some_iff.mp hrest
      rw [Schema.putAt_cons hinnermost]
      exact .inl (Schema.isUntyped_put hinnermost _).symm
    | nil =>
      cases hrest
      by_cases huntyped : part.isUntyped = true
      · obtain ⟨hform, hparent⟩ := hharmless huntyped [] schema rfl rfl
        exact .inr ⟨huntyped, rfl, isAnything_of_untyped hform hpath, hparent⟩
      · exact .inl (Bool.eq_false_iff.mpr huntyped)

end

end TypedClients
