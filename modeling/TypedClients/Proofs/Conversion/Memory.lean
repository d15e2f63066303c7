import TypedClients.Proofs.Conversion.Comparison
import TypedClients.Proofs.Conversion.Expansion

/-!
# The memory of conversions

A conversion forgets what it has remembered, whether it succeeds or fails, and at any depth
(`Restores`). So calls on one converter, one after the other, end as they would on converters of
their own (`Converter.run_calls`).

In a document references are never expanded, and the memory is not even looked at: a schema there
is converted to the same node whatever is remembered (`Steady`, `node_of_yields`).

## What is proved

`run_calls` — a conversion with any budget leaves the memory as it was, whatever that is and however
it ends, and so does every conversion inside it. So a row of calls on one converter gives the row of
outcomes that calls on fresh converters would give, also after calls that have failed.

That the memory is left as it is does not mean that it has no effect. A reference that is remembered
is an error, so a conversion in the middle of another one may fail where it would succeed on its
own.
-/

namespace TypedClients

open Conversion

/-! ### Computations -/

namespace Conversion

variable {α : Type}

/-- The computation leaves every memory as it found it, however it ends. -/
def Restores (action : Conversion α) : Prop :=
  ∀ memory, (action.run.run memory).2 = memory

theorem compatible_restores : Compatible fun _ x _ => Restores x where
  pure _ _ := rfl
  refuse _ _ := rfl
  bind {_ _ x _ _ _} hx hf memory := by
    have hx := hx memory
    rw [run_bind]
    rcases hrun : x.run.run memory with ⟨_ | a, after⟩
    · rwa [hrun] at hx
    · rw [hrun] at hx
      obtain rfl : after = memory := hx
      exact hf a after

/-- The computation ends in the same way in every memory, and leaves it as it is. -/
def Steady (action : Conversion α) : Prop :=
  ∃ outcome, ∀ memory, action.run.run memory = (outcome, memory)

theorem steady_pure (a : α) : Steady (pure a : Conversion α) := ⟨.ok a, fun _ => rfl⟩

theorem steady_throw (e : ResolveError) : Steady (throw e : Conversion α) :=
  ⟨.error e, fun _ => rfl⟩

theorem compatible_steady : Compatible fun _ x _ => Steady x where
  pure := steady_pure
  refuse what := steady_throw (.unsupportedSchema what)
  bind := by
    rintro _ _ x _ f _ ⟨outcome, hx⟩ hf
    cases outcome with
    | error e => exact ⟨.error e, fun memory => by rw [run_bind, hx]⟩
    | ok a =>
      obtain ⟨outcome, hf⟩ := hf a
      exact ⟨outcome, fun memory => by rw [run_bind, hx]; exact hf memory⟩

end Conversion

/-! ### Calls on one converter -/

namespace Converter

variable (c : Converter)

theorem restores_expand (budget : Nat) (path : String) : Restores (c.expand budget path) := by
  induction budget generalizing path with
  | zero => exact fun memory => rfl
  | succ budget ih =>
    intro memory
    rw [expand_succ, run_expandOnce]
    split
    · rfl
    · rfl
    · next schema _ =>
      have hschema : Restores (convertWith (c.expand budget) c.context.untyped schema) :=
        compatible_restores.of_refs fun path _ => ih path
      split
      · rfl
      · show ((convertWith _ _ schema).run.run (path :: memory)).2.erase path = memory
        rw [hschema, List.erase_cons_head]

/-- The outcomes of calls on one converter, one after the other. A call that fails is followed by
the next one all the same. -/
def calls (schemas : List Schema) : StateM (List String) (List (Except ResolveError Node)) :=
  schemas.mapM fun schema => (c.convert schema).run

/-- A conversion leaves the memory as it found it, whatever it began with and however it ends, with
any budget, and so do the conversions in it. So calls on a new converter end as they would each on
a new one. -/
theorem run_calls :
    (∀ budget schema memory,
        ((convertWith (c.expand budget) c.context.untyped schema).run.run memory).2 = memory) ∧
      ∀ schemas, (c.calls schemas).run [] = (schemas.map c.node, []) := by
  have hrestores : ∀ budget schema,
      Restores (convertWith (c.expand budget) c.context.untyped schema) := fun budget schema =>
    compatible_restores.of_refs fun path _ => c.restores_expand budget path
  refine ⟨hrestores, fun schemas => ?_⟩
  induction schemas with
  | nil => rfl
  | cons schema schemas ih =>
    have hcall : (c.convert schema).run.run [] = (c.node schema, []) :=
      Prod.ext rfl (hrestores c.budget schema [])
    have hcons : (c.calls (schema :: schemas)).run []
        = (c.node schema :: ((c.calls schemas).run []).1, ((c.calls schemas).run []).2) := by
      rw [calls, List.mapM_cons, StateT.run_bind, hcall]
      rfl
    rw [hcons, ih, List.map_cons]

/-- A file with boxes, whose two sides are of one kind, and with chains, which are made of
chains. -/
def shapeFile : Schema :=
  .inline none none [] [] none none [] [] []
    [("side", .inline (some (.one .number)) none [] [] none none [] [] [] [] []),
      ("box", .inline (some (.one .object)) none
        [("width", .ref "#/$defs/side"), ("height", .ref "#/$defs/side")] [] none none [] [] [] []
        []),
      ("chain", .inline (some (.one .array)) none [] [] none (some (.ref "#/$defs/chain")) [] [] []
        [] [])]
    []

/-- The converter of the schemas in that file. -/
def shapes : Converter := ⟨[], .entity shapeFile⟩

example : (shapes.calls
      [.ref "#/$defs/chain", .ref "#/$defs/side", .ref "#/$defs/chain"]).run []
    = ([.error (.circular "#/$defs/chain"), .ok (.prim .number),
        .error (.circular "#/$defs/chain")], []) := rfl

end Converter

/-! ### Conversions in documents -/

section

variable {entities : List String} {schema : Schema} {node : Node}

theorem steady_expand (budget : Nat) (path : String) :
    Steady ((Converter.mk entities .components).expand budget path) := by
  cases budget with
  | zero => exact steady_throw _
  | succ budget =>
    rw [Converter.expand_succ, Converter.expandOnce.eq_def]
    split
    · exact steady_throw _
    · exact steady_pure _
    · next schema htarget => exact absurd htarget Converter.target?_ne_definition

/-- In a document the conversion of a schema gives the same node in every memory. -/
theorem node_of_yields (h : Yields ((Converter.mk entities .components).convert schema) node) :
    (Converter.mk entities .components).node schema = .ok node := by
  obtain ⟨outcome, hsteady⟩ : Steady ((Converter.mk entities .components).convert schema) :=
    compatible_steady.of_refs fun path _ => steady_expand _ path
  obtain ⟨before, after, h⟩ := h
  rw [hsteady before] at h
  obtain rfl := (Prod.mk.inj h).1
  exact congrArg Prod.fst (hsteady [])

end

end TypedClients
