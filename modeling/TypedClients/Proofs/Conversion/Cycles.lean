import Mathlib.Logic.Function.Iterate
import TypedClients.Proofs.Conversion.Inside
import TypedClients.Proofs.Conversion.Memory
import TypedClients.Proofs.Keyed

/-!
# Circular definitions

The definition that a reference leads to may have references of its own, and these may lead back
(`Converter.IsCircular`). An expansion goes from one definition to another and remembers where it
has been. There are only so many definitions, so it is not nested deeper than there are, and what
a deeper one would come to makes no difference (`run_iterate_expandOnce`). That an expansion is
reported as circular has its reason in a circle of definitions
(`reflTransGen_of_run_expand`), and one that runs into a circle gives no node
(`not_isCircular_of_yields`).

## What is proved

`convert_cycles` — of every converter and schema: in every memory the conversion ends in the same
way with the budget that the definitions set and with any greater one. With a fresh memory it gives
no node if a circle of definitions can be reached from the schema; and if it reports a reference as
circular, then that reference can be reached from the schema and leads back to itself.

The induction is over the number of definitions that are not remembered yet (`unvisited`), which
goes down with every expansion. The two directions need different arguments: that a report has a
reason is an invariant of runs (`Reports`), and that a circle gives no node is by the budget, of
which each round would have to do with less.

## What is not here

Circles through entities. A reference to an entity is not expanded, so they are no circles of a
conversion.
-/

namespace TypedClients

open Conversion Relation

namespace Converter

variable {c : Converter} {schema : Schema} {node : Node} {path next : String}
  {memory : List String}

/-- `path` leads to a definition that has the reference `next` in a place that its shape depends
on. -/
def Expands (c : Converter) (path next : String) : Prop :=
  ∃ schema, c.target? path = some (.definition schema) ∧ schema.Refers next

/-- The conversion of the schema comes to the reference, through any number of definitions. -/
def Reaches (c : Converter) (schema : Schema) (path : String) : Prop :=
  ∃ first, schema.Refers first ∧ ReflTransGen c.Expands first path

/-- The reference leads back to itself, through definitions alone. -/
def IsCircular (c : Converter) (path : String) : Prop :=
  TransGen c.Expands path path

/-! ### How deep expansions are nested -/

/-- The references that lead to definitions, if they lead to no entities. -/
def definitionPaths (c : Converter) : List String :=
  match c.context with
  | .components => []
  | .entity root =>
    (localTables root).flatMap fun (lead, table) => (Keyed.keys table).map (lead ++ ·)

theorem length_definitionPaths_lt (c : Converter) : c.definitionPaths.length < c.budget := by
  unfold definitionPaths budget
  cases c.context with
  | components => exact Nat.zero_lt_one
  | entity root => simp [localTables, Keyed.keys]

theorem mem_definitionPaths (h : c.target? path = some (.definition schema)) :
    path ∈ c.definitionPaths := by
  obtain ⟨entities, context⟩ := c
  cases context with
  | components => exact absurd h target?_ne_definition
  | entity root =>
    unfold target? at h
    dsimp only at h
    split at h
    · cases h
    · next name table hname =>
      split at h
      · cases Option.some.inj h
      · obtain ⟨part, hpart, -⟩ := Option.map_eq_some_iff.mp h
        obtain ⟨⟨lead, _⟩, hlead, hfound⟩ := List.exists_of_findSome?_eq_some hname
        obtain ⟨_, hafter, hfound⟩ := Option.map_eq_some_iff.mp hfound
        cases hfound
        refine List.mem_flatMap.mpr ⟨(lead, table), hlead, List.mem_map.mpr ⟨name, ?_, ?_⟩⟩
        · exact Keyed.mem_keys_iff.mpr ⟨part, hpart⟩
        · exact (Text.after?_eq_some_iff.mp hafter).symm

/-- The references to definitions that are not remembered. -/
def unvisited (c : Converter) (memory : List String) : List String :=
  c.definitionPaths.filter (· ∉ memory)

theorem length_unvisited_lt (c : Converter) (memory : List String) :
    (c.unvisited memory).length < c.budget :=
  Nat.lt_of_le_of_lt (List.length_filter_le _ _) c.length_definitionPaths_lt

theorem length_unvisited_cons_lt (h : c.target? path = some (.definition schema))
    (hmem : path ∉ memory) :
    (c.unvisited (path :: memory)).length < (c.unvisited memory).length := by
  have hcons : c.unvisited (path :: memory) = (c.unvisited memory).filter (· ≠ path) := by
    simp [unvisited, List.filter_filter, not_or]
  rw [hcons, List.length_filter_lt_length_iff_exists]
  refine ⟨path, ?_, by simp⟩
  simp [unvisited, mem_definitionPaths h, hmem]

/-- Two computations end in the same way in a memory, and leave it as it is. -/
theorem compatible_agree (memory : List String) : Compatible fun _ x y =>
    x.run.run memory = y.run.run memory ∧ (y.run.run memory).2 = memory where
  pure _ := ⟨rfl, rfl⟩
  refuse _ := ⟨rfl, rfl⟩
  bind {_ _ x y f g} hx hf := by
    obtain ⟨hsame, hmemory⟩ := hx
    rw [run_bind, run_bind, hsame]
    rcases hrun : y.run.run memory with ⟨_ | a, after⟩
    · rw [hrun] at hmemory
      exact ⟨rfl, hmemory⟩
    · rw [hrun] at hmemory
      obtain rfl : after = memory := hmemory
      exact hf a

/-- Once there is one level for each definition that is not remembered, and one more, what the
expansions below come to makes no difference. -/
theorem run_iterate_expandOnce {depth : Nat} (h : (c.unvisited memory).length < depth)
    (onRef other : String → Conversion Node) (path : String) :
    (c.expandOnce^[depth] onRef path).run.run memory
        = (c.expandOnce^[depth] other path).run.run memory ∧
      ((c.expandOnce^[depth] other path).run.run memory).2 = memory := by
  induction depth generalizing memory path with
  | zero => exact absurd h (Nat.not_lt_zero _)
  | succ depth ih =>
    rw [Function.iterate_succ_apply', Function.iterate_succ_apply', run_expandOnce,
      run_expandOnce]
    split
    · exact ⟨rfl, rfl⟩
    · exact ⟨rfl, rfl⟩
    · next schema htarget =>
      split
      · exact ⟨rfl, rfl⟩
      · next hmem =>
        have hlt := length_unvisited_cons_lt htarget hmem
        obtain ⟨hsame, hrestored⟩ :
            (convertWith (c.expandOnce^[depth] onRef) c.context.untyped schema).run.run
                (path :: memory)
              = (convertWith (c.expandOnce^[depth] other) c.context.untyped schema).run.run
                (path :: memory) ∧ _ :=
          (compatible_agree (path :: memory)).convertWith fun path _ => ih (by omega) path
        rw [hsame]
        refine ⟨rfl, ?_⟩
        show ((convertWith _ _ schema).run.run (path :: memory)).2.erase path = memory
        rw [hrestored, List.erase_cons_head]

theorem expand_eq_iterate (c : Converter) (budget : Nat) :
    c.expand budget = c.expandOnce^[budget] fun path => throw (.circular path) := by
  induction budget with
  | zero => rfl
  | succ budget ih => rw [expand_succ, ih, Function.iterate_succ_apply']

/-! ### What is reported -/

theorem fault_ne_circular : c.fault path ≠ .circular next := by
  unfold fault
  split <;> split <;> exact ResolveError.noConfusion

/-- The memory is left as it is, and what is reported as circular is among `reported`. -/
def Reports (memory : List String) (reported : String → Prop) {α : Type} (action : Conversion α) :
    Prop :=
  (action.run.run memory).2 = memory ∧
    ∀ path, (action.run.run memory).1 = .error (.circular path) → reported path

theorem compatible_reports (memory : List String) (reported : String → Prop) :
    Compatible fun _ x _ => Reports memory reported x where
  pure _ := ⟨rfl, fun _ h => by cases h⟩
  refuse _ := ⟨rfl, fun _ h => by cases h⟩
  bind {_ _ x _ f _} hx hf := by
    obtain ⟨hmemory, hreported⟩ := hx
    rw [Reports, run_bind]
    rcases hrun : x.run.run memory with ⟨e | a, after⟩
    · rw [hrun] at hmemory hreported
      exact ⟨hmemory, fun path h => hreported path (congrArg Except.error (Except.error.inj h))⟩
    · rw [hrun] at hmemory
      obtain rfl : after = memory := hmemory
      exact hf a

/-- What is reported as circular is a reference that the expansion comes to. It is one that is
remembered, or else it leads back to itself. -/
theorem reflTransGen_of_run_expand {budget : Nat} (hbudget : (c.unvisited memory).length < budget)
    {reported : String}
    (h : ((c.expand budget path).run.run memory).1 = .error (.circular reported)) :
    ReflTransGen c.Expands path reported ∧ (reported ∈ memory ∨ c.IsCircular reported) := by
  induction budget generalizing memory path reported with
  | zero => exact absurd hbudget (Nat.not_lt_zero _)
  | succ budget ih =>
    rw [expand_succ, run_expandOnce] at h
    split at h
    · exact absurd (Except.error.inj h) fault_ne_circular
    · cases h
    · next schema htarget =>
      split at h
      · next hmem =>
        cases h
        exact ⟨.refl, .inl hmem⟩
      · next hmem =>
        have hlt := length_unvisited_cons_lt htarget hmem
        have hreports : Reports (path :: memory) (fun reported => ∃ next, schema.Refers next ∧
            ReflTransGen c.Expands next reported ∧
              (reported ∈ path :: memory ∨ c.IsCircular reported))
            (convertWith (c.expand budget) c.context.untyped schema) := by
          refine (compatible_reports _ _).of_refs fun next hnext =>
            ⟨c.restores_expand budget next _, fun reported h => ⟨next, hnext, ih ?_ h⟩⟩
          omega
        obtain ⟨next, hnext, hreaches, hreported⟩ := hreports.2 reported h
        have hexpands : c.Expands path next := ⟨schema, htarget, hnext⟩
        refine ⟨.head hexpands hreaches, ?_⟩
        rcases hreported with hreported | hreported
        · rcases List.mem_cons.mp hreported with rfl | hreported
          · exact .inr (.head' hexpands hreaches)
          · exact .inl hreported
        · exact .inr hreported

/-! ### What gives no node -/

theorem yields_of_expands {budget : Nat} (h : Yields (c.expand budget path) node)
    (hnext : c.Expands path next) : ∃ rest < budget, ∃ m, Yields (c.expand rest next) m := by
  obtain ⟨schema, htarget, hrefers⟩ := hnext
  rcases expands_of_yields h with ⟨name, -, hname, -⟩ | ⟨part, rest, hpart, rfl, hconverts⟩
  · cases htarget.symm.trans hname
  · cases htarget.symm.trans hpart
    exact ⟨rest, Nat.lt_succ_self rest, yields_of_refers hconverts hrefers⟩

theorem yields_of_transGen {budget : Nat} (h : Yields (c.expand budget path) node)
    (hnext : TransGen c.Expands path next) :
    ∃ rest < budget, ∃ m, Yields (c.expand rest next) m := by
  induction hnext with
  | single hnext => exact yields_of_expands h hnext
  | tail _ hnext ih =>
    obtain ⟨rest, hrest, m, hm⟩ := ih
    obtain ⟨less, hless, hnode⟩ := yields_of_expands hm hnext
    exact ⟨less, by omega, hnode⟩

/-- A reference that leads back to itself gives no node, as it would have to do so with ever less
of the budget. -/
theorem not_isCircular_of_yields {budget : Nat} (h : Yields (c.expand budget path) node) :
    ¬ c.IsCircular path := by
  induction budget using Nat.strongRecOn generalizing node with
  | ind budget ih =>
    intro hcircular
    obtain ⟨rest, hrest, m, hm⟩ := yields_of_transGen h hcircular
    exact ih rest hrest hm hcircular

/-! ### Whole schemas -/

/-- The conversion of a schema ends: with as many levels of expansion as the budget has, or more,
it does not matter what a level below them would come to. It gives a node only if it comes to no
circle of definitions, and it reports a reference as circular only if it comes to that reference
and the reference leads back to itself. So a definition that is come to more than once, but not
from itself, is never reported. -/
theorem convert_cycles (c : Converter) (schema : Schema) :
    (∀ depth, c.budget ≤ depth → ∀ onRef memory,
        (convertWith (c.expandOnce^[depth] onRef) c.context.untyped schema).run.run memory
          = (c.convert schema).run.run memory) ∧
      (∀ node, c.node schema = .ok node → ∀ path, c.Reaches schema path → ¬ c.IsCircular path) ∧
      ∀ path, c.node schema = .error (.circular path) →
        c.Reaches schema path ∧ c.IsCircular path := by
  refine ⟨fun depth hdepth onRef memory => ?_, fun node hnode path hpath => ?_, fun path h => ?_⟩
  · obtain ⟨extra, rfl⟩ := Nat.exists_eq_add_of_le hdepth
    rw [convert, expand_eq_iterate, Function.iterate_add_apply]
    exact ((compatible_agree memory).convertWith fun path _ =>
      run_iterate_expandOnce (c.length_unvisited_lt memory) _ _ path).1
  · obtain ⟨first, hfirst, hpath⟩ := hpath
    obtain ⟨m, hm⟩ := yields_of_refers (converts_of_node hnode) hfirst
    rcases reflTransGen_iff_eq_or_transGen.mp hpath with rfl | hpath
    · exact not_isCircular_of_yields hm
    · obtain ⟨rest, -, m, hm⟩ := yields_of_transGen hm hpath
      exact not_isCircular_of_yields hm
  · have hreports : Reports [] (fun path => ∃ first, schema.Refers first ∧
        ReflTransGen c.Expands first path ∧ c.IsCircular path) (c.convert schema) := by
      refine (compatible_reports _ _).of_refs fun first hfirst =>
        ⟨c.restores_expand c.budget first [], fun path h => ?_⟩
      obtain ⟨hreaches, hreported⟩ := reflTransGen_of_run_expand (c.length_unvisited_lt []) h
      exact ⟨first, hfirst, hreaches, hreported.resolve_left List.not_mem_nil⟩
    obtain ⟨first, hfirst, hreaches, hcircular⟩ := hreports.2 path h
    exact ⟨⟨first, hfirst, hreaches⟩, hcircular⟩

theorem convert_cycles_shapes :
    (shapes.node (.ref "#/$defs/box")
          = .ok (.object [("width", .prim .number), ("height", .prim .number)] [] none) ∧
        ∀ path, shapes.Reaches (.ref "#/$defs/box") path → ¬ shapes.IsCircular path) ∧
      shapes.node (.ref "#/$defs/chain") = .error (.circular "#/$defs/chain") ∧
        shapes.Reaches (.ref "#/$defs/chain") "#/$defs/chain" ∧
          shapes.IsCircular "#/$defs/chain" := by
  have hbox : shapes.node (.ref "#/$defs/box")
      = .ok (.object [("width", .prim .number), ("height", .prim .number)] [] none) := rfl
  have hchain : shapes.node (.ref "#/$defs/chain") = .error (.circular "#/$defs/chain") := rfl
  exact ⟨⟨hbox, (convert_cycles shapes _).2.1 _ hbox⟩, hchain,
    (convert_cycles shapes _).2.2 _ hchain⟩

end Converter

end TypedClients
