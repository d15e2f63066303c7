import Mathlib.Data.List.Basic
import TypedClients.Endpoint.Basic

/-!
# Paths as templates

A path is text in which names stand in braces. A template is such a path taken apart: up to the first
opening brace there is text, up to the closing brace after it a name, and so on with what follows,
until no name is complete any more. A brace that is never closed, a closing brace alone and a second
opening brace are thus part of a text or of a name.

Every path is that of exactly one template (`Template.exists_path_eq`, `Template.path_inj`), and the
names of the template are the placeholders of the path (`Template.placeholdersFrom_path`).

## What it is for

Finding the placeholders and filling them are two scans over the path with a state of their own. As
every path is that of one template, both can be described by recursion over the template, and what
is proved of addresses is proved over templates.

## What is not here

What a path may look like as an address. A name may be empty or hold a slash, and two placeholders
may have one name; nothing here excludes it.
-/

namespace TypedClients

/-- There is no name in braces in the text. -/
def Bare (text : List Char) : Prop :=
  ∀ before name after, text ≠ before ++ '\x7b' :: (name ++ '\x7d' :: after)

/-- A path taken apart. -/
inductive Template where
  /-- Text without a placeholder. -/
  | last (text : List Char) (bare : Bare text)
  /-- The text up to the first placeholder, its name, and what follows. -/
  | hole (text name : List Char) (opened : '\x7b' ∉ text) (closed : '\x7d' ∉ name) (next : Template)

/-! ### First occurrences -/

/-- Where a character occurs first in a text is determined. -/
theorem eq_and_eq_of_append_cons {c : Char} {before before' after after' : List Char}
    (h : c ∉ before) (h' : c ∉ before') (heq : before ++ c :: after = before' ++ c :: after') :
    before = before' ∧ after = after' := by
  induction before generalizing before' with
  | nil =>
    cases before' with
    | nil => exact ⟨rfl, (List.cons.inj heq).2⟩
    | cons d before' =>
      obtain ⟨rfl, -⟩ := List.cons.inj heq
      exact absurd List.mem_cons_self h'
  | cons d before ih =>
    cases before' with
    | nil =>
      obtain ⟨rfl, -⟩ := List.cons.inj heq
      exact absurd List.mem_cons_self h
    | cons d' before' =>
      obtain ⟨rfl, hrest⟩ := List.cons.inj heq
      obtain ⟨rfl, hafter⟩ :=
        ih (List.not_mem_of_not_mem_cons h) (List.not_mem_of_not_mem_cons h') hrest
      exact ⟨rfl, hafter⟩

theorem bare_of_notMem {text : List Char} (h : '\x7b' ∉ text) : Bare text := by
  rintro before name after rfl
  exact h (by simp)

/-- Behind the first brace that is opened in a bare text none is closed. -/
theorem bare_iff_of_notMem {before after : List Char} (h : '\x7b' ∉ before) :
    Bare (before ++ '\x7b' :: after) ↔ '\x7d' ∉ after := by
  constructor
  · intro hbare hclose
    obtain ⟨name, rest, rfl⟩ := List.append_of_mem hclose
    exact hbare before name rest rfl
  · intro hclose start name rest heq
    -- The first brace in the text stands before the name or is the name's own.
    by_cases hstart : '\x7b' ∈ start
    · obtain ⟨first, second, rfl, hfirst⟩ := List.eq_append_cons_of_mem hstart
      rw [List.append_assoc, List.cons_append] at heq
      obtain ⟨-, rfl⟩ := eq_and_eq_of_append_cons h hfirst heq
      exact hclose (by simp)
    · obtain ⟨-, rfl⟩ := eq_and_eq_of_append_cons h hstart heq
      exact hclose (by simp)

namespace Template

variable {text name s : List Char} {template other : Template}

/-! ### The path of a template -/

/-- The names of the placeholders, in order. -/
def names : Template → List String
  | last _ _ => []
  | hole _ name _ _ next => String.ofList name :: next.names

/-- The text, with something in the place of each placeholder. -/
def fill (write : String → List Char) : Template → List Char
  | last text _ => text
  | hole text name _ _ next => text ++ (write (String.ofList name) ++ next.fill write)

/-- The path that is taken apart: each name stands in braces. -/
def path (template : Template) : List Char :=
  template.fill fun name => '\x7b' :: (name.toList ++ ['\x7d'])

theorem path_last {bare : Bare text} : (last text bare).path = text :=
  rfl

theorem path_hole {opened : '\x7b' ∉ text} {closed : '\x7d' ∉ name} {next : Template} :
    (hole text name opened closed next).path
      = text ++ '\x7b' :: (name ++ '\x7d' :: next.path) := by
  rw [path, fill, ← path]
  simp

/-- Every text is the path of a template. -/
theorem exists_path_eq (s : List Char) : ∃ template : Template, template.path = s := by
  by_cases hopen : '\x7b' ∈ s
  · obtain ⟨text, rest, rfl, htext⟩ := List.eq_append_cons_of_mem hopen
    by_cases hclose : '\x7d' ∈ rest
    · obtain ⟨name, after, rfl, hname⟩ := List.eq_append_cons_of_mem hclose
      obtain ⟨next, rfl⟩ := exists_path_eq after
      exact ⟨hole text name htext hname next, path_hole⟩
    · exact ⟨last _ ((bare_iff_of_notMem htext).mpr hclose), rfl⟩
  · exact ⟨last s (bare_of_notMem hopen), rfl⟩
termination_by s.length
decreasing_by
  subst_vars
  simp only [List.length_append, List.length_cons]
  omega

/-- A path is taken apart in one way only. -/
theorem path_inj (h : template.path = other.path) : template = other := by
  induction template generalizing other with
  | last text bare =>
    cases other with
    | last text' bare' =>
      rw [path_last, path_last] at h
      subst h
      rfl
    | hole text' name' opened' closed' next' => exact absurd (h.trans path_hole) (bare _ _ _)
  | hole text name opened closed next ih =>
    cases other with
    | last text' bare' => exact absurd (h.symm.trans path_hole) (bare' _ _ _)
    | hole text' name' opened' closed' next' =>
      rw [path_hole, path_hole] at h
      obtain ⟨rfl, hname⟩ := eq_and_eq_of_append_cons opened opened' h
      obtain ⟨rfl, hnext⟩ := eq_and_eq_of_append_cons closed closed' hname
      rw [ih hnext]

/-! ### Looking for placeholders -/

theorem placeholdersFrom_text (h : '\x7b' ∉ text) :
    Endpoint.placeholdersFrom none (text ++ s) = Endpoint.placeholdersFrom none s := by
  induction text with
  | nil => rfl
  | cons c text ih =>
    obtain ⟨hc, htext⟩ := List.ne_and_not_mem_of_not_mem_cons h
    rw [List.cons_append, Endpoint.placeholdersFrom, if_neg (Ne.symm hc), ih htext]

theorem placeholdersFrom_name (h : '\x7d' ∉ name) (read : List Char) :
    Endpoint.placeholdersFrom (some read) (name ++ '\x7d' :: s)
      = String.ofList (read.reverse ++ name) :: Endpoint.placeholdersFrom none s := by
  induction name generalizing read with
  | nil => rw [List.nil_append, Endpoint.placeholdersFrom, if_pos rfl, List.append_nil]
  | cons c name ih =>
    obtain ⟨hc, hname⟩ := List.ne_and_not_mem_of_not_mem_cons h
    rw [List.cons_append, Endpoint.placeholdersFrom, if_neg (Ne.symm hc), ih hname,
      List.reverse_cons, List.append_assoc, List.singleton_append]

theorem placeholdersFrom_open (h : '\x7d' ∉ s) (read : List Char) :
    Endpoint.placeholdersFrom (some read) s = [] := by
  induction s generalizing read with
  | nil => rfl
  | cons c s ih =>
    obtain ⟨hc, hs⟩ := List.ne_and_not_mem_of_not_mem_cons h
    rw [Endpoint.placeholdersFrom, if_neg (Ne.symm hc), ih hs]

theorem placeholdersFrom_bare (h : Bare s) : Endpoint.placeholdersFrom none s = [] := by
  by_cases hopen : '\x7b' ∈ s
  · obtain ⟨text, rest, rfl, htext⟩ := List.eq_append_cons_of_mem hopen
    rw [placeholdersFrom_text htext, Endpoint.placeholdersFrom, if_pos rfl,
      placeholdersFrom_open ((bare_iff_of_notMem htext).mp h)]
  · rw [← List.append_nil s, placeholdersFrom_text hopen]
    rfl

/-- The placeholders of a path are the names of the template. -/
theorem placeholdersFrom_path (template : Template) :
    Endpoint.placeholdersFrom none template.path = template.names := by
  induction template with
  | last text bare => exact placeholdersFrom_bare bare
  | hole text name opened closed next ih =>
    rw [path_hole, placeholdersFrom_text opened, Endpoint.placeholdersFrom, if_pos rfl,
      placeholdersFrom_name closed, ih]
    rfl

end Template

end TypedClients
