import TypedClients.Proofs.Conversion.Shape

/-!
# The expansion of references

A reference means an entity or a definition (`Converter.target?`). `run_expandOnce` says what an
expansion ends in and what it leaves of the memory, whatever the references in the definition come
to, and `expands_of_yields` what the node of a reference can be.

## What it is for

`Converter.expand` does several things in one: it finds out what a reference means, looks into the
memory, and converts the definition while the reference is remembered. `expandOnce` is the same with
the references inside the definition left open, so that a fact about expansions is one about a
single level, and the whole is that level iterated. Facts about what references mean need not know
about memories at all (`target?`).
-/

namespace TypedClients

open Conversion

/-- What a reference means: an entity, or a definition that is expanded. -/
inductive Target where
  | entity (name : String)
  | definition (schema : Schema)

namespace Converter

/-- What a reference means in the context of the converter, if it leads anywhere. -/
def target? (c : Converter) (path : String) : Option Target :=
  match c.context with
  | .components =>
    match Text.after? componentLead path with
    | none => none
    | some name =>
      if Name.entity name ∈ c.entities then some (.entity (Name.entity name)) else none
  | .entity root =>
    match localTarget? root path with
    | none => none
    | some (name, table) =>
      if Name.entity name ∈ c.entities then some (.entity (Name.entity name))
      else (Keyed.get? name table).map .definition

theorem mem_entities_of_target? {c : Converter} {path name : String}
    (h : c.target? path = some (.entity name)) : name ∈ c.entities := by
  unfold target? at h
  split at h
  · split at h
    · cases h
    · split at h
      · next hmem => exact Target.entity.inj (Option.some.inj h) ▸ hmem
      · cases h
  · split at h
    · cases h
    · split at h
      · next hmem => exact Target.entity.inj (Option.some.inj h) ▸ hmem
      · obtain ⟨part, -, hpart⟩ := Option.map_eq_some_iff.mp h
        cases hpart

/-- In a document no reference leads to a definition. -/
theorem target?_ne_definition {entities : List String} {path : String} {schema : Schema} :
    (Converter.mk entities .components).target? path ≠ some (.definition schema) := by
  intro h
  unfold target? at h
  dsimp only at h
  split at h
  · cases h
  · split at h
    · cases Option.some.inj h
    · cases h

/-- What is wrong with a reference that leads nowhere. -/
def fault (c : Converter) (path : String) : ResolveError :=
  match c.context with
  | .components =>
    match Text.after? componentLead path with
    | none => .unsupportedRef path
    | some name => .unknownEntity name
  | .entity root =>
    match localTarget? root path with
    | none => .unsupportedRef path
    | some _ => .targetNotFound path

/-- The expansion of a reference, with `onRef` for the references in the definition that it leads
to. -/
def expandOnce (c : Converter) (onRef : String → Conversion Node) (path : String) :
    Conversion Node :=
  match c.target? path with
  | none => throw (c.fault path)
  | some (.entity name) => pure (.ref name)
  | some (.definition schema) => do
    let visiting ← get
    if path ∈ visiting then throw (.circular path)
    else remembering path (convertWith onRef c.context.untyped schema)

/-- Each expansion spends one of the budget on the expansions in it. -/
theorem expand_succ (c : Converter) (budget : Nat) :
    c.expand (budget + 1) = c.expandOnce (c.expand budget) := by
  funext path
  rw [expand.eq_def, expandOnce.eq_def, target?.eq_def, fault.eq_def]
  dsimp only
  cases c.context with
  | components =>
    dsimp only
    cases Text.after? componentLead path with
    | none => rfl
    | some name =>
      by_cases hmem : Name.entity name ∈ c.entities
      · simp only [if_pos hmem]
      · simp only [if_neg hmem]
  | entity root =>
    dsimp only
    cases localTarget? root path with
    | none => rfl
    | some found =>
      obtain ⟨name, table⟩ := found
      by_cases hmem : Name.entity name ∈ c.entities
      · simp only [if_pos hmem]
      · simp only [if_neg hmem]
        cases Keyed.get? name table with
        | none => rfl
        | some schema => rfl

/-- What an expansion ends in, and what it leaves of the memory. -/
theorem run_expandOnce (c : Converter) (onRef : String → Conversion Node) (path : String)
    (memory : List String) :
    (c.expandOnce onRef path).run.run memory = match c.target? path with
      | none => (.error (c.fault path), memory)
      | some (.entity name) => (.ok (.ref name), memory)
      | some (.definition schema) =>
        if path ∈ memory then (.error (.circular path), memory)
        else
          let (outcome, after) :=
            (convertWith onRef c.context.untyped schema).run.run (path :: memory)
          (outcome, after.erase path) := by
  rw [expandOnce.eq_def]
  split
  · rfl
  · rfl
  · rw [run_bind]
    show (if path ∈ memory then throw (.circular path)
      else remembering path _ : Conversion Node).run.run memory = _
    split
    · rfl
    · exact run_remembering path _ memory

/-- A reference is converted to the reference of an entity, or to the node of the definition that
it leads to, which is converted with less of the budget. -/
theorem expands_of_yields {c : Converter} {budget : Nat} {path : String} {node : Node}
    (h : Yields (c.expand budget path) node) :
    (∃ name ∈ c.entities, c.target? path = some (.entity name) ∧ node = .ref name) ∨
      ∃ part rest, c.target? path = some (.definition part) ∧ budget = rest + 1 ∧
        Converts (c.expand rest) c.context.untyped part node := by
  cases budget with
  | zero => exact absurd h not_yields_throw
  | succ rest =>
    rw [expand_succ, expandOnce.eq_def] at h
    split at h
    · exact absurd h not_yields_throw
    · next name htarget =>
      obtain rfl := eq_of_yields_pure h
      exact .inl ⟨name, mem_entities_of_target? htarget, htarget, rfl⟩
    · next part htarget =>
      obtain ⟨visiting, -, h⟩ := exists_of_yields_bind h
      split at h
      · exact absurd h not_yields_throw
      · exact .inr ⟨part, rest, htarget, rfl, yields_of_yields_remembering h⟩

/-- A node with a fresh memory is a node that the conversion can end in. -/
theorem converts_of_node {c : Converter} {schema : Schema} {node : Node}
    (h : c.node schema = .ok node) :
    Converts (c.expand c.budget) c.context.untyped schema node :=
  ⟨[], _, Prod.ext h rfl⟩

end Converter

end TypedClients
