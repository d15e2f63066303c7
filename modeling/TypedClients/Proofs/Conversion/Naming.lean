import TypedClients.Proofs.Conversion.Agreement
import TypedClients.Proofs.Conversion.LocalReference

/-!
# Files in which a part is named

A file in which a part is a definition of its own comes to a node with the same validator and the same
type, or to the same error, as the file with the part in place (`NamedAlike`), unless the part is an
untyped schema for the members outside the properties of another one. Such a schema counts as no
constraint while it is in place, though it may say what the members of its own values are, and a
reference to it counts as one. Then the two come to the same only if the part says nothing at all, and
is not all that the schema around it says (`Harmless`).

Both files are converted side by side (`agreeElsewhere`). The references that they are in the middle of
expanding are the same, apart from the one to the part, which is expanded where the other file comes
to the part (`Paired`). It is not met again in its own expansion: the part stands in one definition,
and that is being expanded already in both files, or it stands in none.

## What is proved

* `namedAlike_of_nameable` — naming a part that is harmless where it stands changes neither
  validator nor type nor error. For the values of a root that says nothing else the condition is
  exact.
* `harmless_values_iff` — what it comes to there, as a question of the two schemas alone.
* `not_namedAlike_labelGroups` — a file in which naming a part does make a difference.
-/

namespace TypedClients

open Converter

/-! ### Expansions in both files -/

namespace Converter

variable {c : Converter} {schema : Schema} {budget : Nat} {path : String} {memory : List String}

/-- A definition that is not remembered is converted while it is. -/
theorem run_expand_of_definition (htarget : c.target? path = some (.definition schema))
    (hmem : path ∉ memory) :
    (c.expand (budget + 1) path).run.run memory
      = (((convertWith (c.expand budget) c.context.untyped schema).run.run (path :: memory)).1,
        memory) := by
  have hrestores : ((c.expand (budget + 1) path).run.run memory).2 = memory :=
    c.restores_expand (budget + 1) path memory
  rw [expand_succ, run_expandOnce, htarget] at hrestores ⊢
  simp only [if_neg hmem] at hrestores ⊢
  exact Prod.ext rfl hrestores

end Converter

/-- The memories of two conversions, in the file as it is and in the one with the part named. The name
is remembered only while the part is converted, and then nothing is left to be expanded that the part
stands in. -/
structure Paired (place : List Schema.Step) (key : String) (memory memory' : List String) : Prop where
  same (path : String) : path ≠ localPath key → (path ∈ memory' ↔ path ∈ memory)
  closed : localPath key ∈ memory' → ∀ path, path ∉ memory → restIn path place = none

section

variable {entities : List String} {root part schema : Schema} {place : List Schema.Step}
  {key path : String} {memory memory' : List String} {budget budget' : Nat}

theorem Paired.cons (h : Paired place key memory memory') (hpath : path ≠ localPath key) :
    Paired place key (path :: memory) (path :: memory') where
  same other hother := by rw [List.mem_cons, List.mem_cons, h.same other hother]
  closed hkey other hother := by
    refine h.closed ((List.mem_cons.mp hkey).resolve_left (Ne.symm hpath)) other fun hmem => ?_
    exact hother (List.mem_cons_of_mem _ hmem)

/-- The name is remembered when the part is come to. -/
theorem Paired.cons_localPath (h : Paired place key memory memory')
    (hclosed : ∀ path, path ∉ memory → restIn path place = none) :
    Paired place key memory (localPath key :: memory') where
  same path hpath := by
    rw [List.mem_cons, h.same path hpath]
    exact or_iff_right hpath
  closed _ := hclosed

/-- The treatments of references in the two files agree in paired memories. -/
def AgreeElsewhere (entities : List String) (root : Schema) (place : List Schema.Step) (key : String)
    (part : Schema) (budget : Nat) : Prop :=
  ∀ ⦃budget' memory memory' path⦄, Paired place key memory memory' →
    ((inFile entities root).unvisited memory).length < budget →
    ((inFile entities (root.naming place key part)).unvisited memory').length < budget' →
    path ≠ localPath key →
    Agree Node.Alike memory memory' ((inFile entities root).expand budget path)
      ((inFile entities (root.naming place key part)).expand budget' path)

/-- No reference that stands in the file has the name. -/
theorem agreeInside_of_at? (h : Nameable entities root place key part) {outer : List Schema.Step}
    (hschema : root.at? outer = some schema) {onRef onRef' : String → Conversion Node}
    (hrefs : ∀ path, path ≠ localPath key →
      Agree Node.Alike memory memory' (onRef path) (onRef' path)) :
    AgreeInside onRef onRef' memory memory' schema := by
  refine fun inner path hpath => hrefs path ?_
  rintro rfl
  refine h.unused (outer ++ inner) ?_
  rw [Schema.at?_append, hschema]
  exact hpath

/-- The part is converted like the reference to it. -/
theorem agree_localPath (h : Nameable entities root place key part)
    (helsewhere : AgreeElsewhere entities root place key part budget)
    (hpaired : Paired place key memory memory') (hmem : localPath key ∉ memory')
    (hclosed : ∀ path, path ∉ memory → restIn path place = none)
    (hbudget : ((inFile entities root).unvisited memory).length < budget)
    (hbudget' : ((inFile entities (root.naming place key part)).unvisited memory').length
      < budget') :
    Agree Node.Alike memory memory'
      (convertWith ((inFile entities root).expand budget) .unknown part)
      ((inFile entities (root.naming place key part)).expand budget' (localPath key)) := by
  obtain ⟨rest, rfl⟩ : ∃ rest, budget' = rest + 1 := ⟨budget' - 1, by omega⟩
  have htarget := target?_localPath h
  have hlt := length_unvisited_cons_lt htarget hmem
  have hpart : Agree Node.Alike memory (localPath key :: memory')
      (convertWith ((inFile entities root).expand budget) .unknown part)
      (convertWith ((inFile entities (root.naming place key part)).expand rest) .unknown part) :=
    agree_of_refs (agreeInside_of_at? h h.found fun path hpath =>
      helsewhere (hpaired.cons_localPath hclosed) hbudget (by omega) hpath)
  refine ⟨hpart.restores, restores_expand _ _ _ _, ?_⟩
  rw [run_expand_of_definition htarget hmem]
  exact hpart.outcome

/-- A definition that is not remembered is converted alike in both files. -/
theorem agree_edited (h : Nameable entities root place key part)
    (hharmless : Harmless root part place)
    (helsewhere : AgreeElsewhere entities root place key part budget)
    (hpaired : Paired place key memory memory') (hpath : path ≠ localPath key)
    (hmem : path ∉ memory)
    (htarget : (inFile entities root).target? path = some (.definition schema))
    (hbudget : ((inFile entities root).unvisited (path :: memory)).length < budget)
    (hbudget' : ((inFile entities (root.naming place key part)).unvisited
      (path :: memory')).length < budget') :
    Agree Node.Alike (path :: memory) (path :: memory')
      (convertWith ((inFile entities root).expand budget) .unknown schema)
      (convertWith ((inFile entities (root.naming place key part)).expand budget') .unknown
        (edited place key path schema)) := by
  obtain ⟨step, hstep, hinner⟩ := exists_inside?_of_target? htarget
  have hschema : root.at? [step] = some schema := Schema.at?_singleton.trans hinner
  have hpaired' := hpaired.cons hpath
  have hrefs : AgreeInside ((inFile entities root).expand budget)
      ((inFile entities (root.naming place key part)).expand budget') (path :: memory)
      (path :: memory') schema :=
    agreeInside_of_at? h hschema fun other hother => helsewhere hpaired' hbudget hbudget' hother
  cases place with
  | nil => exact absurd rfl h.below
  | cons first rest =>
    by_cases hfirst : first.path? = some path
    -- The part stands in this definition, and so in no other one.
    · obtain rfl := Schema.Step.path?_inj hstep hfirst
      obtain ⟨inner, hinner', hrest⟩ := Schema.at?_cons_eq_some_iff.mp h.found
      obtain rfl := Option.some.inj (hinner.symm.trans hinner')
      have hthis : restIn path (step :: rest) = some rest := if_pos hstep
      have hothers : ∀ other, other ∉ path :: memory → restIn other (step :: rest) = none := by
        refine fun other hother => if_neg fun hstep' => hother ?_
        rw [Option.some.inj (hstep.symm.trans hstep')]
        exact List.mem_cons_self
      have hkey : localPath key ∉ path :: memory' := by
        intro hkey
        have hkey := (List.mem_cons.mp hkey).resolve_left (Ne.symm hpath)
        exact absurd (hthis.symm.trans (hpaired.closed hkey path hmem)) (by simp)
      rw [edited, hthis]
      exact agree_putAt hrefs hrest
        (agree_localPath h helsewhere hpaired' hkey hothers hbudget hbudget')
        (hharmless.inside hinner)
    · have hthis : restIn path (first :: rest) = none := if_neg hfirst
      rw [edited, hthis]
      exact agree_of_refs hrefs

/-- References are expanded alike in both files. -/
theorem agreeElsewhere (h : Nameable entities root place key part)
    (hharmless : Harmless root part place) (budget : Nat) :
    AgreeElsewhere entities root place key part budget := by
  induction budget with
  | zero => exact fun _ _ _ _ _ hbudget => absurd hbudget (Nat.not_lt_zero _)
  | succ budget ih =>
    intro budget' memory memory' path hpaired hbudget hbudget' hpath
    obtain ⟨rest, rfl⟩ : ∃ rest, budget' = rest + 1 := ⟨budget' - 1, by omega⟩
    have htarget' := target?_naming h hpath
    refine ⟨restores_expand _ _ _ _, restores_expand _ _ _ _, ?_⟩
    cases htarget : (inFile entities root).target? path with
    | none =>
      rw [htarget] at htarget'
      rw [expand_succ, expand_succ, run_expandOnce, run_expandOnce, htarget, htarget', fault_entity,
        fault_entity]
      exact .error _
    | some target =>
      rw [htarget] at htarget'
      cases target with
      | entity name =>
        rw [expand_succ, expand_succ, run_expandOnce, run_expandOnce, htarget, htarget']
        exact .ok (Node.Alike.refl _)
      | definition schema =>
        by_cases hmem : path ∈ memory
        · have hmem' := (hpaired.same path hpath).mpr hmem
          rw [expand_succ, expand_succ, run_expandOnce, run_expandOnce, htarget, htarget']
          simp only [Option.map_some, Target.edited, if_pos hmem, if_pos hmem']
          exact .error _
        · have hmem' := mt (hpaired.same path hpath).mp hmem
          have hlt := length_unvisited_cons_lt htarget hmem
          have hlt' := length_unvisited_cons_lt htarget' hmem'
          rw [run_expand_of_definition htarget hmem, run_expand_of_definition htarget' hmem']
          exact
            (agree_edited h hharmless ih hpaired hpath hmem htarget (by omega) (by omega)).outcome

/-! ### Whole files -/

theorem convertWith_define (onRef : String → Conversion Node) (untyped : Primitive)
    (schema : Schema) (key : String) (part : Schema) :
    convertWith onRef untyped (schema.define key part) = convertWith onRef untyped schema := by
  cases schema <;> rfl

/-- The definitions in a schema do not count for its own shape. -/
theorem convertWith_put_of_path? {onRef : String → Conversion Node} {untyped : Primitive}
    {step : Schema.Step} (h : step.path? = some path) (schema part : Schema) :
    convertWith onRef untyped (schema.put step part) = convertWith onRef untyped schema := by
  cases schema with
  | ref path => rfl
  | inline =>
    cases step with
    | defs key => rfl
    | definitions key => rfl
    | _ => cases h

/-- The file comes to a node that is like the one it comes to with the part named, or both come to
the same error. -/
def NamedAlike (entities : List String) (root : Schema) (place : List Schema.Step) (key : String)
    (part : Schema) : Prop :=
  SameOutcome Node.Alike ((inFile entities root).node root)
    ((inFile entities (root.naming place key part)).node (root.naming place key part))

theorem namedAlike_of_harmless (h : Nameable entities root place key part)
    (hharmless : Harmless root part place) : NamedAlike entities root place key part := by
  have hpaired : Paired place key [] [] :=
    ⟨fun _ _ => Iff.rfl, fun hmem => absurd hmem List.not_mem_nil⟩
  have hbudget := length_unvisited_lt (inFile entities root) []
  have hbudget' := length_unvisited_lt (inFile entities (root.naming place key part)) []
  have helsewhere := agreeElsewhere h hharmless
  have hrefs : AgreeInside _ _ [] [] root :=
    agreeInside_of_at? h (show root.at? [] = some root from rfl) fun path hpath =>
      helsewhere _ hpaired hbudget hbudget' hpath
  have hagree : Converted ((inFile entities root).expand (inFile entities root).budget)
      ((inFile entities (root.naming place key part)).expand
        (inFile entities (root.naming place key part)).budget) [] [] root
      ((root.putAt place (.ref (localPath key))).define key part) := by
    rw [Converted, convertWith_define]
    by_cases hinside : ∃ path rest, restIn path place = some rest
    -- The part stands in a definition.
    · obtain ⟨path, rest, hrest⟩ := hinside
      cases place with
      | nil => cases hrest
      | cons step rest =>
        obtain ⟨inner, hinner, -⟩ := Schema.at?_cons_eq_some_iff.mp h.found
        have hstep : step.path? = some path := by
          by_contra hstep
          cases (if_neg hstep).symm.trans hrest
        rw [Schema.putAt_cons hinner, convertWith_put_of_path? hstep]
        exact agree_of_refs hrefs
    · have hclosed : ∀ path, path ∉ ([] : List String) → restIn path place = none := by
        intro path _
        cases hrest : restIn path place with
        | none => rfl
        | some rest => exact absurd ⟨path, rest, hrest⟩ hinside
      exact agree_putAt hrefs h.found
        (agree_localPath h (helsewhere _) hpaired List.not_mem_nil hclosed hbudget hbudget')
        hharmless
  exact hagree.outcome

end

/-! ### Records of untyped values -/

namespace Schema

variable {schema part : Schema}

/-- The schema says nothing, or only something of the members outside its properties, of which it has
none. -/
def OnlyMembers (schema : Schema) : Prop :=
  schema.properties = [] ∧ (schema.form = .untyped ∨ schema.form = .typed (.one .object))

theorem onlyMembers_of_isUntyped (h : schema.isUntyped = true) : schema.OnlyMembers := by
  cases schema with
  | ref path => cases h
  | inline type title properties required additional items allOf oneOf anyOf defs definitions =>
    simp only [isUntyped, Bool.and_eq_true, Option.isNone_iff_eq_none, List.isEmpty_iff] at h
    obtain ⟨⟨⟨⟨⟨rfl, rfl⟩, -⟩, rfl⟩, rfl⟩, rfl⟩ := h
    refine ⟨rfl, ?_⟩
    simp only [form, typesOf?]
    cases additional.any Additional.isTyped with
    | true => exact .inr rfl
    | false => exact .inl rfl

/-- A reference for the values makes a record of a schema that says nothing else. -/
theorem OnlyMembers.naming (h : schema.OnlyMembers) (key : String)
    (hpart : schema.inside? .values = some part) :
    (schema.naming [.values] key part).properties = [] ∧
      (schema.naming [.values] key part).form = .typed (.one .object) ∧
      (schema.naming [.values] key part).values? = some (.ref (localPath key)) := by
  cases schema with
  | ref path => cases hpart
  | inline type title properties required additional items allOf oneOf anyOf defs definitions =>
    obtain rfl : additional = some (.schema part) := inside?_values_eq_some_iff.mp hpart
    obtain ⟨rfl, hform⟩ := h
    refine ⟨rfl, ?_, rfl⟩
    show form (.inline type title [] required (some (.schema (.ref _))) items allOf oneOf anyOf _ _)
      = _
    have hempty : allOf.isEmpty = true ∧ anyOf.isEmpty = true ∧ oneOf.isEmpty = true := by
      simp only [form] at hform
      split at hform
      · simp at hform
      split at hform
      · simp at hform
      split at hform
      · simp at hform
      · simp_all
    obtain ⟨hall, hany, hone⟩ := hempty
    simp only [form, hall, hany, hone, Bool.not_true, Bool.false_eq_true, if_false] at hform ⊢
    cases type with
    | none => rfl
    | some types => simpa [typesOf?] using hform

end Schema

/-- Only the values of a record matter here, so whether a part may be named is a question of the part
and the record. -/
theorem harmless_values_iff {root part : Schema} : Harmless root part [.values] ↔
    (part.isUntyped = true → part.form = .untyped ∧ root.form ≠ .untyped) := by
  constructor
  · exact fun h huntyped => h huntyped [] root rfl rfl
  · intro h huntyped outer parent houter hparent
    cases outer with
    | nil =>
      cases hparent
      exact h huntyped
    | cons step outer => cases outer <;> cases houter

section

variable {entities : List String} {root part schema : Schema} {key : String} {node : Node}
  {onRef : String → Conversion Node} {untyped : Primitive}

theorem node_of_untyped (h : root.form = .untyped) :
    (inFile entities root).node root = .ok (.prim .unknown) := by
  rw [Converter.node, convert, convertWith_eq, h]
  rfl

theorem node_of_record (hproperties : root.properties = [])
    (hform : root.form = .typed (.one .object)) (hvalues : root.values? = none) :
    (inFile entities root).node root = .ok (objectNode [] root.required none) := by
  rw [Converter.node, convert, convertWith_eq, hform]
  show ((convertObject _ _ root).run.run []).1 = _
  rw [convertObject, convertAdditional_eq, hvalues, hproperties]
  rfl

/-- An object without properties is converted to a record. -/
theorem exists_record_of_converts (h : Converts onRef untyped schema node)
    (hproperties : schema.properties = []) (hform : schema.form = .typed (.one .object)) :
    ∃ required values, node = .object [] required values ∧
      Option.Rel (Converts onRef untyped) schema.values? values := by
  cases shape_of_yields h with
  | reference form | choice form | several form | untyped form => cases form.symm.trans hform
  | one form node_type =>
    cases form.symm.trans hform
    cases node_type with
    | object declared others =>
      rw [hproperties] at declared
      cases declared
      exact ⟨_, _, rfl, others⟩

theorem validator_ne_of_record (style : RefStyle) (required : List String) (values : Option Node) :
    (Node.object [] required values).validator style ≠ "z.unknown()" := by
  intro h
  rw [Node.validator_record] at h
  have hchars := congrArg String.toList h
  simp [String.toList_append] at hchars

/-- The file with the values of a record named comes to a record of what their schema is converted
to. -/
theorem exists_record_of_naming (h : Nameable entities root [.values] key part)
    (honly : root.OnlyMembers)
    (hnode : (inFile entities (root.naming [.values] key part)).node
      (root.naming [.values] key part) = .ok node) :
    ∃ required value budget, node = .object [] required (some value) ∧
      Converts ((inFile entities (root.naming [.values] key part)).expand budget) .unknown part
        value := by
  obtain ⟨hproperties, hform, hvalues⟩ := honly.naming key (Schema.at?_singleton.symm.trans h.found)
  obtain ⟨required, values, rfl, hrel⟩ :=
    exists_record_of_converts (converts_of_node hnode) hproperties hform
  rw [hvalues] at hrel
  obtain ⟨value, rfl, hvalue⟩ := exists_some_right hrel
  rcases expands_of_yields hvalue with ⟨name, -, hname, -⟩ | ⟨found, budget, hfound, -, hvalue⟩
  · cases (target?_localPath h).symm.trans hname
  · cases (target?_localPath h).symm.trans hfound
    exact ⟨required, value, budget, rfl, hvalue⟩

/-- Where a record's values may be anything while an untyped schema for them is in place, they may not
once it is named. -/
theorem harmless_of_namedAlike (h : Nameable entities root [.values] key part)
    (honly : root.OnlyMembers) (halike : NamedAlike entities root [.values] key part) :
    Harmless root part [.values] := by
  rw [harmless_values_iff]
  intro huntyped
  obtain ⟨hproperties, hform⟩ := honly
  unfold NamedAlike at halike
  generalize hnamed : (inFile entities (root.naming [.values] key part)).node
    (root.naming [.values] key part) = outcome at halike
  rcases hform with hform | hform
  · rw [node_of_untyped hform] at halike
    cases halike with
    | ok related =>
      obtain ⟨required, value, budget, rfl, -⟩ :=
        exists_record_of_naming h ⟨hproperties, .inl hform⟩ hnamed
      have hvalidator := related.validator .bare
      rw [Node.validator.eq_def] at hvalidator
      exact absurd hvalidator.symm (validator_ne_of_record .bare required (some value))
  · have hvalues : root.values? = none := by
      have hinside : root.inside? .values = some part := Schema.at?_singleton.symm.trans h.found
      rw [Schema.values?, Schema.inside?_values_eq_some_iff.mp hinside]
      exact if_pos huntyped
    rw [node_of_record hproperties hform hvalues] at halike
    cases halike with
    | ok related =>
      obtain ⟨required, value, budget, rfl, hvalue⟩ :=
        exists_record_of_naming h ⟨hproperties, .inr hform⟩ hnamed
      obtain ⟨hnone, hpart⟩ := Schema.onlyMembers_of_isUntyped huntyped
      refine ⟨hpart.resolve_right fun hpart => ?_, by simp [hform]⟩
      obtain ⟨required', values, rfl, -⟩ := exists_record_of_converts hvalue hnone hpart
      have hvalidator := related.validator .bare
      rw [objectNode, Node.validator_record, Node.validator_record required, String.append_left_inj,
        String.append_right_inj] at hvalidator
      exact validator_ne_of_record .bare required' values hvalidator.symm

/-! ### When a part may be named -/

/-- Naming a part of a file changes nothing unless the part is an untyped schema for the members
outside the properties of another one, and describes members of its own or is all that the other one
says. For a schema that only says something of such members, it then does change what the file comes
to. -/
theorem namedAlike_of_nameable {place : List Schema.Step} (h : Nameable entities root place key part) :
    (Harmless root part place → NamedAlike entities root place key part) ∧
      (place = [.values] → root.OnlyMembers →
        (NamedAlike entities root place key part ↔ Harmless root part place)) := by
  refine ⟨namedAlike_of_harmless h, ?_⟩
  rintro rfl honly
  exact ⟨harmless_of_namedAlike h honly, namedAlike_of_harmless h⟩

end

namespace Schema

/-- No reference stands in the schema. -/
def NoReferences (schema : Schema) : Prop :=
  ∀ place path, schema.at? place ≠ some (.ref path)

theorem noReferences_of_inside {schema : Schema} (hinline : ∀ path, schema ≠ .ref path)
    (hinside : ∀ step part, schema.inside? step = some part → part.NoReferences) :
    schema.NoReferences := by
  intro place path h
  cases place with
  | nil => exact hinline path (Option.some.inj h)
  | cons step rest =>
    obtain ⟨part, hpart, hrest⟩ := at?_cons_eq_some_iff.mp h
    exact hinside step part hpart rest path hrest

/-- A schema that says, apart from its type, what its values are. -/
def withValues (type : Option TypeSet) (values : Schema) : Schema :=
  .inline type none [] [] (some (.schema values)) none [] [] [] [] []

theorem NoReferences.withValues {values : Schema} (h : values.NoReferences)
    (type : Option TypeSet) : (withValues type values).NoReferences := by
  refine noReferences_of_inside nofun fun step part hpart => ?_
  cases step with
  | values =>
    cases hpart
    exact h
  | _ => cases hpart

/-- Strings. -/
def text : Schema :=
  .inline (some (.one .string)) none [] [] none none [] [] [] [] []

theorem noReferences_text : text.NoReferences :=
  noReferences_of_inside nofun fun step part hpart => by cases step <;> cases hpart

end Schema

/-- Terms, with a text for each. -/
def glossary : Schema :=
  .withValues (some (.one .object)) .text

theorem namedAlike_of_nameable_glossary :
    Nameable [] glossary [.values] "Entry" .text ∧ Harmless glossary .text [.values] ∧
      glossary.OnlyMembers ∧ NamedAlike [] glossary [.values] "Entry" .text := by
  have hnameable : Nameable [] glossary [.values] "Entry" .text :=
    ⟨List.cons_ne_nil _ _, rfl, fun place => Schema.noReferences_text.withValues _ place _,
      List.not_mem_nil⟩
  have hharmless : Harmless glossary .text [.values] := fun huntyped => absurd huntyped (by decide)
  exact ⟨hnameable, hharmless, ⟨rfl, .inr rfl⟩, (namedAlike_of_nameable hnameable).1 hharmless⟩

/-- Labels, in groups. -/
def labelGroups : Schema :=
  .withValues (some (.one .object)) (.withValues none .text)

/-- A group may be anything while its schema is in place, and has to be a record of strings once that is
named. -/
theorem not_namedAlike_labelGroups :
    Nameable [] labelGroups [.values] "Labels" (.withValues none .text) ∧
      (inFile [] labelGroups).node labelGroups = .ok (.object [] [] none) ∧
      (inFile [] (labelGroups.naming [.values] "Labels" (.withValues none .text))).node
          (labelGroups.naming [.values] "Labels" (.withValues none .text))
        = .ok (.object [] [] (some (.object [] [] (some (.prim .string))))) ∧
      ¬ NamedAlike [] labelGroups [.values] "Labels" (.withValues none .text) := by
  have hnameable : Nameable [] labelGroups [.values] "Labels" (.withValues none .text) :=
    ⟨List.cons_ne_nil _ _, rfl,
      fun place => ((Schema.noReferences_text.withValues _).withValues _) place _, List.not_mem_nil⟩
  refine ⟨hnameable, rfl, rfl, fun halike => ?_⟩
  have hharmless := harmless_of_namedAlike hnameable ⟨rfl, .inr rfl⟩ halike
  cases (harmless_values_iff.mp hharmless rfl).1

end TypedClients
