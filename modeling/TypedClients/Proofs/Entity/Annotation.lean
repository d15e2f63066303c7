import TypedClients.Entity.Module
import TypedClients.Proofs.Entity.Search
import TypedClients.Proofs.Node.Pieces

/-!
# Which entities are annotated

The type of an entity is inferred from its validator, unless the entity lies on a cycle of
references: then the type is spelled out and the validator annotated with it. No type can be
inferred from a validator that looks itself up, so what matters is what is printed. The names that
are printed for an entity are among its references, and so there is no cycle of printed names on
which all types are inferred. `cyclesAnnotated` puts this together.

## What is proved

`cyclesAnnotated` — for every list of entities without two of one name:

* an entity is annotated exactly if a chain of references that is not empty leads from it back to
  it;
* the search that decides this ends on every graph of references, whatever pending names it takes,
  and with that answer;
* a name that is printed for an entity is one of its references, so no cycle of printed names goes
  through inferred types alone.

## What is not here

More entities are annotated than would have to be: a reference whose name is not printed counts as
well. Nothing is lost by that.
-/

namespace TypedClients.Entity

open Relation

/-! ### The two forms -/

/-- The type of the entity is spelled out, and its validator annotated with it. -/
def Annotated (entity : Entity) (declarations : String) : Prop :=
  declarations = "export type " ++ entity.name ++ " = " ++ entity.shape.typeText .lazy
    ++ ";\nexport const " ++ entity.name ++ ": z.ZodType<" ++ entity.name ++ "> = "
    ++ entity.shape.validator .lazy ++ ";\n"

/-- The type of the entity is inferred from its validator. -/
def Inferred (entity : Entity) (declarations : String) : Prop :=
  declarations = "export const " ++ entity.name ++ " = " ++ entity.shape.validator .lazy
    ++ ";\nexport type " ++ entity.name ++ " = z.infer<typeof " ++ entity.name ++ ">;\n"

theorem annotated_text (entity : Entity) : Annotated entity (text entity true) := rfl

theorem inferred_text (entity : Entity) : Inferred entity (text entity false) := rfl

/-- The two forms begin with different words. -/
theorem not_inferred_of_annotated {entity : Entity} {declarations : String}
    (h : Annotated entity declarations) : ¬ Inferred entity declarations := by
  intro hinferred
  have ht : (declarations.toList.drop 7).head? = some 't' := by rw [h]; simp
  have hc : (declarations.toList.drop 7).head? = some 'c' := by rw [hinferred]; simp
  exact absurd (ht.symm.trans hc) (by decide)

theorem annotated_text_iff {entity : Entity} {recursive : Bool} :
    Annotated entity (text entity recursive) ↔ recursive = true := by
  cases recursive with
  | true => exact iff_of_true (annotated_text entity) rfl
  | false =>
    exact iff_of_false (fun h => not_inferred_of_annotated h (inferred_text entity)) Bool.false_ne_true

theorem inferred_text_iff {entity : Entity} {recursive : Bool} :
    Inferred entity (text entity recursive) ↔ ¬ recursive = true := by
  cases recursive with
  | true =>
    exact iff_of_false (not_inferred_of_annotated (annotated_text entity)) (not_not_intro rfl)
  | false => exact iff_of_true (inferred_text entity) Bool.false_ne_true

/-! ### The module -/

/-- The entities, each with the fragment of the module that follows the head in its place. -/
def declared (entities : List Entity) : List (Entity × String) :=
  entities.zip (fragments entities).tail

theorem declared_eq_map (entities : List Entity) :
    declared entities = entities.map fun e => (e, text e (isRecursive entities e.name)) := by
  have h : (entities.map id).zip (entities.map fun e => text e (isRecursive entities e.name)) = _ :=
    List.zip_map'
  rwa [List.map_id] at h

/-- The name is printed in the validator of the entity or in its type. -/
def Printed (entity : Entity) (name : String) : Prop :=
  .name name ∈ entity.shape.pieces (Node.validatorLayout .lazy) ∨
    .name name ∈ entity.shape.pieces (Node.typeLayout .lazy)

theorem Printed.mem_references {entity : Entity} {name : String} (h : Printed entity name) :
    name ∈ entity.shape.references :=
  h.elim Node.mem_references_of_mem_pieces Node.mem_references_of_mem_pieces

/-- The entities that are annotated are those on cycles of references, and this is enough. -/
structure CyclesAnnotated (entities : List Entity) : Prop where
  /-- The module has a fragment for each entity. -/
  fragments_eq : fragments entities = preamble :: (declared entities).map Prod.snd
  entities_eq : (declared entities).map Prod.fst = entities
  annotated_iff : ∀ d ∈ declared entities, Annotated d.1 d.2 ↔ OnCycle entities d.1.name
  inferred_iff : ∀ d ∈ declared entities, Inferred d.1 d.2 ↔ ¬ OnCycle entities d.1.name
  /-- The search for cycles ends wherever it begins, and finds those that there are. -/
  search : ∀ start, Search.Decides entities start
  validator_eq : ∀ entity ∈ entities,
    entity.shape.validator .lazy = Piece.join (entity.shape.pieces (Node.validatorLayout .lazy))
  typeText_eq : ∀ entity ∈ entities,
    entity.shape.typeText .lazy = Piece.join (entity.shape.pieces (Node.typeLayout .lazy))
  mem_references : ∀ entity ∈ entities, ∀ name, Printed entity name →
    name ∈ entity.shape.references
  /-- From an entity whose type is inferred, no chain of printed names leads back to it through
  others such. -/
  not_cyclic : ∀ name, ¬ TransGen (fun a b => ∃ d ∈ declared entities,
    d.1.name = a ∧ Inferred d.1 d.2 ∧ Printed d.1 b) name name

theorem cyclesAnnotated {entities : List Entity} (distinct : (entities.map Entity.name).Nodup) :
    CyclesAnnotated entities := by
  have hfirst : (declared entities).map Prod.fst = entities := by
    rw [declared_eq_map, List.map_map]
    exact List.map_id entities
  have hsecond : fragments entities = preamble :: (declared entities).map Prod.snd := by
    rw [declared_eq_map, List.map_map]
    rfl
  have hmem : ∀ d ∈ declared entities, d.1 ∈ entities ∧
      d.2 = text d.1 (isRecursive entities d.1.name) := by
    intro d hd
    rw [declared_eq_map] at hd
    obtain ⟨entity, hentity, rfl⟩ := List.mem_map.mp hd
    exact ⟨hentity, rfl⟩
  have hinferred : ∀ d ∈ declared entities, Inferred d.1 d.2 ↔ ¬ OnCycle entities d.1.name := by
    intro d hd
    rw [(hmem d hd).2, inferred_text_iff, isRecursive_iff distinct]
  refine ⟨hsecond, hfirst, fun d hd => ?_, hinferred, Search.decides distinct,
    fun entity _ => (Node.join_validatorPieces .lazy entity.shape).symm,
    fun entity _ => (Node.join_typePieces .lazy entity.shape).symm,
    fun entity _ name hname => hname.mem_references, fun name hcycle => ?_⟩
  · rw [(hmem d hd).2, annotated_text_iff, isRecursive_iff distinct]
  · -- The first entity of the cycle lies on a cycle of references, so its type is not inferred.
    have honCycle : OnCycle entities name := by
      refine TransGen.mono (fun a b => ?_) _ _ hcycle
      rintro ⟨d, hd, hname, -, hprinted⟩
      exact ⟨d.1, (hmem d hd).1, hname, hprinted.mem_references⟩
    obtain ⟨_, ⟨d, hd, hname, hform, -⟩, -⟩ := TransGen.head'_iff.mp hcycle
    exact (hinferred d hd).mp hform (hname ▸ honCycle)

/-- A tree whose children are trees, a forest of trees, and a leaf of what is not in the list. -/
def forest : List Entity :=
  [⟨"tree", "Tree", .object [("children", .array (.ref "Tree")), ("leaf", .ref "Leaf")] [] none⟩,
    ⟨"forest", "Forest", .array (.ref "Tree")⟩,
    ⟨"leaf", "Leaf", .union [.ref "Missing", .prim .null]⟩]

theorem cyclesAnnotated_forest : (forest.map Entity.name).Nodup ∧ CyclesAnnotated forest ∧
    (declared forest).map (fun d => isRecursive forest d.1.name) = [true, false, false] :=
  ⟨by decide, cyclesAnnotated (by decide), by decide⟩

end TypedClients.Entity
