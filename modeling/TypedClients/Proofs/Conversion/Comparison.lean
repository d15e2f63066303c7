import TypedClients.Proofs.Conversion.Shape

/-!
# Conversions compared

The conversion of a schema is put together from those of its references by sequencing alone, apart
from the schemas that it refuses. So whatever relates two treatments of references and is kept by
sequencing relates the two conversions of a schema that they give (`Compatible.convertWith`). A
property of one conversion counts as a relation that does not look at the other.

## How it is proved

`Compatible` asks for three things: that the relation holds of two results and of two errors that
are the same, and that it is kept when one computation is put behind another. The conversion of a
schema is a tree of such steps, so the proof is one induction over schemas with a case for each
keyword, and no case knows what the relation is. The memory is not mentioned: a relation may speak
of it or not.
-/

namespace TypedClients

open Conversion

/-- A relation of conversions that sequencing keeps. -/
structure Compatible (rel : ⦃α : Type⦄ → Conversion α → Conversion α → Prop) : Prop where
  pure {α : Type} (a : α) : rel (pure a) (pure a)
  refuse {α : Type} (what : String) :
    rel (throw (.unsupportedSchema what) : Conversion α) (throw (.unsupportedSchema what))
  bind {α β : Type} {x y : Conversion α} {f g : α → Conversion β} (first : rel x y)
    (rest : ∀ a, rel (f a) (g a)) : rel (x >>= f) (y >>= g)

namespace Compatible

variable {rel : ⦃α : Type⦄ → Conversion α → Conversion α → Prop}

theorem mapM {α β : Type} {f g : α → Conversion β} {items : List α} (hrel : Compatible rel)
    (h : ∀ item ∈ items, rel (f item) (g item)) : rel (items.mapM f) (items.mapM g) := by
  induction items with
  | nil => exact hrel.pure []
  | cons item items ih =>
    rw [List.forall_mem_cons] at h
    rw [List.mapM_cons, List.mapM_cons]
    exact hrel.bind h.1 fun b => hrel.bind (ih h.2) fun rest => hrel.pure (b :: rest)

section

variable {onRef other : String → Conversion Node} {untyped : Primitive} {schema : Schema}

theorem convertList {members : List Schema} (hrel : Compatible rel)
    (h : ∀ part ∈ members,
      rel (convertWith onRef untyped part) (convertWith other untyped part)) :
    rel (convertList onRef untyped members) (convertList other untyped members) := by
  induction members with
  | nil => exact hrel.pure []
  | cons member members ih =>
    rw [List.forall_mem_cons] at h
    exact hrel.bind h.1 fun node => hrel.bind (ih h.2) fun nodes => hrel.pure (node :: nodes)

theorem convertProperties {properties : List (String × Schema)} (hrel : Compatible rel)
    (h : ∀ p ∈ properties, rel (convertWith onRef untyped p.2) (convertWith other untyped p.2)) :
    rel (convertProperties onRef untyped properties) (convertProperties other untyped properties)
    := by
  induction properties with
  | nil => exact hrel.pure []
  | cons property properties ih =>
    rw [List.forall_mem_cons] at h
    exact hrel.bind h.1 fun node => hrel.bind (ih h.2) fun nodes =>
      hrel.pure ((property.1, node) :: nodes)

theorem convertAdditional (hrel : Compatible rel)
    (h : ∀ part, schema.values? = some part →
      rel (convertWith onRef untyped part) (convertWith other untyped part)) :
    rel (convertAdditional onRef untyped schema.additionalProperties?)
      (convertAdditional other untyped schema.additionalProperties?) := by
  unfold Schema.values? at h
  generalize schema.additionalProperties? = additional at h ⊢
  rcases additional with _ | ⟨allowed | values⟩
  · exact hrel.pure none
  · exact hrel.pure none
  · rw [convertAdditional.eq_def, convertAdditional.eq_def]
    simp only at h ⊢
    split
    · exact hrel.pure none
    · next huntyped =>
      rw [if_neg huntyped] at h
      exact hrel.bind (h values rfl) fun node => hrel.pure (some node)

theorem convertNamed {type : TypeName} (hrel : Compatible rel)
    (h : ∀ part, schema.VisitsAs part type →
      rel (convertWith onRef untyped part) (convertWith other untyped part)) :
    rel (convertNamed onRef untyped schema type) (convertNamed other untyped schema type) := by
  cases type with
  | string | number | integer | boolean | null => exact hrel.pure _
  | unsupported => exact hrel.refuse _
  | array =>
    have hitems : rel (convertItems onRef untyped schema.items?)
        (convertItems other untyped schema.items?) := by
      cases hitems : schema.items? with
      | none => exact hrel.pure _
      | some part => exact h part (.items hitems)
    exact hrel.bind hitems fun items => hrel.pure (Node.array items)
  | object =>
    have hproperties := hrel.convertProperties fun p hp => h p.2 (.property hp)
    have hadditional := hrel.convertAdditional fun part hpart => h part (.value hpart)
    exact hrel.bind hproperties fun properties => hrel.bind hadditional fun additional =>
      hrel.pure (objectNode properties schema.required additional)

/-- What relates the treatments of the references in a schema relates its conversions. -/
theorem convertWith (hrel : Compatible rel)
    (hrefs : ∀ path, schema.Refers path → rel (onRef path) (other path)) :
    rel (convertWith onRef untyped schema) (convertWith other untyped schema) := by
  induction schema using Schema.visits_induction with
  | step schema ih =>
    replace ih := fun part visit => ih part visit fun path hpath => hrefs path (hpath.visits visit)
    rw [convertWith_eq, convertWith_eq]
    cases hform : schema.form with
    | reference path => exact hrefs path ⟨schema, .refl, hform⟩
    | refused => exact hrel.refuse _
    | choice members =>
      exact hrel.bind (hrel.convertList fun part hpart => ih part (.member hform hpart))
        fun nodes => hrel.pure (Node.union nodes)
    | typed types =>
      cases types with
      | one type =>
        exact hrel.convertNamed fun part visit => ih part (.typed hform List.mem_cons_self visit)
      | several types =>
        exact hrel.bind (hrel.mapM fun type htype => hrel.convertNamed fun part visit =>
          ih part (.typed hform htype visit)) fun nodes => hrel.pure (Node.union nodes)
    | untyped => exact hrel.pure _

/-- What holds of the treatments of the references in a schema holds of its conversion. -/
theorem of_refs {P : ⦃α : Type⦄ → Conversion α → Prop} (hrel : Compatible fun _ x _ => P x)
    (hrefs : ∀ path, schema.Refers path → P (onRef path)) :
    P (TypedClients.convertWith onRef untyped schema) :=
  @convertWith _ onRef onRef untyped schema hrel hrefs

end

end Compatible

end TypedClients
