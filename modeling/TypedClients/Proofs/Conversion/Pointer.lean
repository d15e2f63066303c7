import TypedClients.Proofs.Conversion.LocalReference
import TypedClients.Proofs.Json.Pointer
import TypedClients.Schema.Decode

/-!
# References to definitions by pointer

A reference leads to a definition if it is converted like the definition is while the reference is
remembered (`LeadsTo`). What follows the lead of a local reference is taken for a key as it is, so the
lead and a key lead to the definition under that key, whatever the key (`leadsTo_of_defines`). The
pointer to a definition has the escaped key behind the lead, and the escapes are not undone. It leads to
the definition, in every file that has one under the key, exactly if the key has nothing to escape
(`leadsTo_pointerTo_iff`).

## What is proved

* `leadsTo_of_defines` — the lead of a local reference with a key behind it, as it is, leads to the
  definition under the key, with any characters in the key.
* `leadsTo_pointerTo_iff` — the pointer to the definition does so in every file exactly if the key
  has neither a tilde nor a slash in it. In any file the pointer is taken for a reference to the
  escaped key, and is reported as not found exactly if there is neither a definition under that nor
  an entity of that name.

## What is not here

References into the inside of a definition. What follows the lead is one key, whatever slashes there
are in it.
-/

namespace TypedClients

open Conversion

namespace Converter

variable {c : Converter} {schema : Schema} {path missing : String} {memory : List String}

/-! ### The conversion of a reference -/

/-- A reference that leads to a definition is converted as the definition is while the reference is
remembered, unless it is remembered already. -/
theorem run_convert_ref (c : Converter) (path : String) (memory : List String) :
    (c.convert (.ref path)).run.run memory = match c.target? path with
      | none => (.error (c.fault path), memory)
      | some (.entity name) => (.ok (.ref name), memory)
      | some (.definition schema) =>
        if path ∈ memory then (.error (.circular path), memory)
        else (remembering path (c.convert schema)).run.run memory := by
  -- One more level of expansion makes no difference, and it can be taken off at the top.
  have hdeeper : (c.convert (.ref path)).run.run memory
      = (c.expandOnce (c.expand c.budget) path).run.run memory := by
    rw [← expand_succ, expand_eq_iterate, Function.iterate_succ_apply]
    show (c.expand c.budget path).run.run memory = _
    rw [expand_eq_iterate]
    exact (run_iterate_expandOnce (c.length_unvisited_lt memory) _ _ path).1
  rw [hdeeper, run_expandOnce]
  rcases c.target? path with _ | ⟨name⟩ | ⟨schema⟩
  · rfl
  · rfl
  · dsimp only
    split
    · rfl
    · exact (run_remembering path _ memory).symm

/-! ### What is not found -/

theorem eq_of_fault_eq_targetNotFound (h : c.fault path = .targetNotFound missing) :
    path = missing := by
  unfold fault at h
  split at h
  · split at h <;> cases h
  · split at h
    · cases h
    · exact ResolveError.targetNotFound.inj h

/-- Whatever error the computation ends in, it is among `reported`. -/
def FailsWith (reported : ResolveError → Prop) {α : Type} (action : Conversion α) : Prop :=
  ∀ memory e, (action.run.run memory).1 = .error e → reported e

theorem compatible_failsWith {reported : ResolveError → Prop}
    (hrefused : ∀ what, reported (.unsupportedSchema what)) :
    Compatible fun _ x _ => FailsWith reported x where
  pure _ _ _ h := by cases h
  refuse what _ _ h := by
    cases h
    exact hrefused what
  bind {_ _ x _ f _} hx hf memory e h := by
    rw [run_bind] at h
    rcases hrun : x.run.run memory with ⟨e' | a, after⟩
    · rw [hrun] at h
      exact hx memory e (by rw [hrun]; exact congrArg Except.error (Except.error.inj h))
    · rw [hrun] at h
      exact hf a after e h

/-- The reference that is reported as not found leads nowhere. -/
def Unfound (c : Converter) (e : ResolveError) : Prop :=
  ∀ missing, e = .targetNotFound missing → c.target? missing = none

theorem failsWith_expand (c : Converter) (budget : Nat) (path : String) :
    FailsWith c.Unfound (c.expand budget path) := by
  induction budget generalizing path with
  | zero =>
    intro memory e h missing hmissing
    cases h
    cases hmissing
  | succ budget ih =>
    intro memory e h missing hmissing
    rw [expand_succ, run_expandOnce] at h
    split at h
    · next htarget =>
      have hfault := Except.error.inj h
      rwa [← eq_of_fault_eq_targetNotFound (hfault.trans hmissing)]
    · cases h
    · split at h
      · cases h
        cases hmissing
      · exact (compatible_failsWith (fun _ _ h => by cases h)).of_refs (fun path _ => ih path)
          _ e h missing hmissing

theorem target?_eq_none_of_run_convert
    (h : ((c.convert schema).run.run memory).1 = .error (.targetNotFound missing)) :
    c.target? missing = none := by
  have hfails : FailsWith c.Unfound (c.convert schema) :=
    (compatible_failsWith (fun _ _ h => by cases h)).of_refs fun path _ => c.failsWith_expand _ path
  exact hfails memory _ h missing rfl

/-! ### Leading to a definition -/

/-- The reference is converted like the definition is while the reference is remembered, and is never
reported as not found. -/
structure LeadsTo (c : Converter) (path : String) (target : Schema) : Prop where
  converts : ∀ memory, path ∉ memory →
    (c.convert (.ref path)).run.run memory = (remembering path (c.convert target)).run.run memory
  found : ∀ memory, ((c.convert (.ref path)).run.run memory).1 ≠ .error (.targetNotFound path)

theorem leadsTo_of_target? (h : c.target? path = some (.definition schema)) :
    c.LeadsTo path schema where
  converts memory hmem := by rw [run_convert_ref, h]; exact if_neg hmem
  found memory herror := by cases h.symm.trans (target?_eq_none_of_run_convert herror)

section

variable {entities : List String} {root target : Schema} {lead key : String}
  {table : List (String × Schema)}

/-- The lead and a name are a step to what the table has under the name. -/
theorem exists_ofPath?_eq (hlead : (lead, table) ∈ localTables root) (name : String) :
    ∃ step, Schema.Step.ofPath? (lead ++ name) = some (name, step) ∧
      root.inside? step = Keyed.get? name table := by
  simp only [localTables, List.mem_cons, List.not_mem_nil, or_false, Prod.mk.injEq] at hlead
  rcases hlead with ⟨rfl, rfl⟩ | ⟨rfl, rfl⟩
  · exact ⟨.defs name, Schema.Step.ofPath?_defs name, Schema.inside?_defs name⟩
  · exact ⟨.definitions name, Schema.Step.ofPath?_definitions name, Schema.inside?_definitions name⟩

/-- What follows the lead of a local reference is the name of an entity, or else a key. -/
theorem target?_local (hlead : (lead, table) ∈ localTables root) (name : String) :
    (inFile entities root).target? (lead ++ name) =
      if Name.entity name ∈ entities then some (.entity (Name.entity name))
      else (Keyed.get? name table).map .definition := by
  obtain ⟨step, hstep, hinside⟩ := exists_ofPath?_eq hlead name
  rw [target?_entity, hstep, Option.bind_some]
  dsimp only
  rw [hinside]

theorem fault_local (hlead : (lead, table) ∈ localTables root) (name : String) :
    (inFile entities root).fault (lead ++ name) = .targetNotFound (lead ++ name) := by
  obtain ⟨step, hstep, -⟩ := exists_ofPath?_eq hlead name
  rw [fault_entity, hstep]

/-- In the file there is the definition under the key, in the table of the lead, and the key names no
entity. -/
structure Defines (entities : List String) (root : Schema) (lead key : String) (target : Schema) :
    Prop where
  found : ∃ table, (lead, table) ∈ localTables root ∧ Keyed.get? key table = some target
  noEntity : Name.entity key ∉ entities

/-- The lead and a key as it is lead to the definition under the key. -/
theorem leadsTo_of_defines (h : Defines entities root lead key target) :
    (inFile entities root).LeadsTo (lead ++ key) target := by
  obtain ⟨⟨table, hlead, htarget⟩, hentity⟩ := h
  apply leadsTo_of_target?
  rw [target?_local hlead, if_neg hentity, htarget, Option.map_some]

/-- A local reference is reported as not found exactly if what follows the lead names no entity and is
no key. -/
theorem run_convert_local_iff (hlead : (lead, table) ∈ localTables root) (name : String)
    (memory : List String) :
    (((inFile entities root).convert (.ref (lead ++ name))).run.run memory).1
        = .error (.targetNotFound (lead ++ name))
      ↔ Name.entity name ∉ entities ∧ name ∉ Keyed.keys table := by
  have hnone : (inFile entities root).target? (lead ++ name) = none
      ↔ Name.entity name ∉ entities ∧ name ∉ Keyed.keys table := by
    rw [target?_local hlead, ← Keyed.get?_eq_none_iff]
    by_cases hentity : Name.entity name ∈ entities
    · simp [hentity]
    · simp [hentity]
  rw [← hnone]
  constructor
  · exact target?_eq_none_of_run_convert
  · intro h
    rw [run_convert_ref, h, fault_local hlead]

end

end Converter

open Converter

/-- The reference to the definition under the key by the pointer to it. -/
def pointerTo (lead key : String) : String :=
  lead ++ Json.escapeStep key

/-- The pointer to a definition leads to it, in every file that has one under the key, exactly if there
is no tilde and no slash in the key. In any file it leads to the definition under the escaped key as it
stands, and it is reported as not found exactly if that names no entity and is no key of the table. -/
theorem leadsTo_pointerTo_iff (key : String) :
    ((∀ entities root lead target, Defines entities root lead key target →
        (inFile entities root).LeadsTo (pointerTo lead key) target)
      ↔ '~' ∉ key.toList ∧ '/' ∉ key.toList) ∧
    ∀ entities root,
      (∀ lead other, Defines entities root lead (Json.escapeStep key) other →
        (inFile entities root).LeadsTo (pointerTo lead key) other) ∧
      ∀ lead table, (lead, table) ∈ localTables root → ∀ memory,
        ((((inFile entities root).convert (.ref (pointerTo lead key))).run.run memory).1
            = .error (.targetNotFound (pointerTo lead key))
          ↔ Name.entity (Json.escapeStep key) ∉ entities ∧
            Json.escapeStep key ∉ Keyed.keys table) := by
  refine ⟨?_, fun entities root => ⟨fun lead other h => leadsTo_of_defines h, ?_⟩⟩
  · have hself : Json.escapeStep key = key ↔ '~' ∉ key.toList ∧ '/' ∉ key.toList := by
      rw [← Json.escapeStepChars_eq_self_iff, ← String.toList_inj, Json.escapeStep,
        Text.toList_lift]
    rw [← hself]
    constructor
    · intro h
      by_contra hne
      -- Where this is the only definition, the escaped key is no other one's.
      have hlead : ("#/$defs/", [(key, Schema.empty)])
          ∈ localTables (Schema.empty.define key .empty) := List.mem_cons_self
      have hdefines : Defines [] (Schema.empty.define key .empty) "#/$defs/" key .empty :=
        ⟨⟨_, hlead, if_pos rfl⟩, List.not_mem_nil⟩
      refine (h _ _ _ _ hdefines).found [] ?_
      rw [pointerTo, run_convert_local_iff hlead]
      exact ⟨List.not_mem_nil, by simpa [Keyed.keys] using hne⟩
    · intro heq entities root lead target h
      rw [pointerTo, heq]
      exact leadsTo_of_defines h
  · exact fun lead table hlead memory => run_convert_local_iff hlead _ memory

/-- A file with a list of speeds, which have a slash in their key, and with a unit. -/
def speedTree : Json :=
  .object
    [("type", .string "array"), ("items", .object [("$ref", .string "#/$defs/km~1h")]),
      ("$defs", .object [("km/h", .object [("type", .string "number")])]),
      ("definitions", .object [("unit", .object [("type", .string "string")])])]

/-- A speed. -/
def speed : Schema :=
  .inline (some (.one .number)) none [] [] none none [] [] [] [] []

/-- The unit. -/
def speedUnit : Schema :=
  .inline (some (.one .string)) none [] [] none none [] [] [] [] []

/-- The schema in that file. -/
def speeds : Schema :=
  .inline (some (.one .array)) none [] [] none (some (.ref "#/$defs/km~1h")) [] [] []
    [("km/h", speed)] [("unit", speedUnit)]

theorem leadsTo_pointerTo_unit :
    Defines ["Speed"] speeds "#/definitions/" "unit" speedUnit ∧
      pointerTo "#/definitions/" "unit" = "#/definitions/unit" ∧
      (inFile ["Speed"] speeds).LeadsTo (pointerTo "#/definitions/" "unit") speedUnit ∧
      (inFile ["Speed"] speeds).node (.ref "#/definitions/unit") = .ok (.prim .string) := by
  have hdefines : Defines ["Speed"] speeds "#/definitions/" "unit" speedUnit :=
    ⟨⟨_, List.mem_cons_of_mem _ List.mem_cons_self, rfl⟩, by decide⟩
  exact ⟨hdefines, rfl, (leadsTo_pointerTo_iff "unit").1.mpr (by decide) _ _ _ _ hdefines, rfl⟩

/-- The pointer to the speed names it in the file, and is reported as not found. -/
theorem not_leadsTo_pointerTo_speed :
    Schema.ofJson? speedTree = some speeds ∧ Defines [] speeds "#/$defs/" "km/h" speed ∧
      pointerTo "#/$defs/" "km/h" = "#/$defs/km~1h" ∧
      speedTree.pointer? "/$defs/km~1h".toList = some (.object [("type", .string "number")]) ∧
      (inFile [] speeds).node (.ref "#/$defs/km~1h")
        = .error (.targetNotFound "#/$defs/km~1h") ∧
      ((remembering "#/$defs/km~1h" ((inFile [] speeds).convert speed)).run.run []).1
        = .ok (.prim .number) ∧
      ¬ (inFile [] speeds).LeadsTo (pointerTo "#/$defs/" "km/h") speed := by
  have hdefines : Defines [] speeds "#/$defs/" "km/h" speed :=
    ⟨⟨_, List.mem_cons_self, rfl⟩, List.not_mem_nil⟩
  exact ⟨rfl, hdefines, rfl, rfl, rfl, rfl, fun h => h.found [] rfl⟩

end TypedClients
