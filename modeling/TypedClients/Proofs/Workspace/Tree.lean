import TypedClients.Proofs.Keyed
import TypedClients.Workspace.Tree

/-!
# Entries after writing

What is at a location of a tree after an entry has been put somewhere. Above the new entry folders
keep what they have, at its place it is found, below it is what it brings, and apart from it nothing
has changed.

## How it is proved

All by induction on the location at which is written, for any other location: it is the same, below,
above or apart. A step that both share leads into one folder, and the induction goes on there; at
the first step in which they differ the look-ups do not meet.
-/

namespace TypedClients.Entry

theorem get?_nil (tree : Entry) : tree.get? [] = some tree := by
  cases tree <;> rfl

theorem get?_append (tree : Entry) (location rest : List FileName) :
    tree.get? (location ++ rest) = (tree.get? location).bind (get? · rest) := by
  induction location generalizing tree with
  | nil => rw [List.nil_append, get?_nil, Option.bind_some]
  | cons name location ih =>
    cases tree with
    | file content => rfl
    | folder entries =>
      rw [List.cons_append, get?, get?]
      cases Keyed.get? name entries with
      | none => rfl
      | some entry => exact ih entry

/-- Only a folder has anything inside. -/
theorem exists_folder_of_get? {tree entry : Entry} {location rest : List FileName}
    (hrest : rest ≠ []) (h : tree.get? (location ++ rest) = some entry) :
    ∃ entries, tree.get? location = some (.folder entries) := by
  rw [get?_append] at h
  obtain ⟨inside, hinside, h⟩ := Option.bind_eq_some_iff.mp h
  cases inside with
  | folder entries => exact ⟨entries, hinside⟩
  | file content =>
    cases rest with
    | nil => exact absurd rfl hrest
    | cons name rest => cases h

/-- Writing below a location changes what is there. -/
theorem get?_put_append {tree entry : Entry} {location : List FileName} (new : Entry)
    (rest : List FileName) (h : tree.get? location = some entry) :
    (put new tree (location ++ rest)).get? location = some (put new entry rest) := by
  induction location generalizing tree with
  | nil =>
    rw [get?_nil, Option.some.injEq] at h
    rw [List.nil_append, get?_nil, h]
  | cons name location ih =>
    cases tree with
    | file content => cases h
    | folder entries =>
      rw [get?] at h
      cases hname : Keyed.get? name entries with
      | none =>
        rw [hname] at h
        cases h
      | some inside =>
        rw [hname] at h
        have hput : put new (.folder entries) (name :: location ++ rest)
            = .folder (Keyed.insert name (put new inside (location ++ rest)) entries) := by
          rw [List.cons_append, put.eq_def]
          simp only [hname]
        rw [hput, get?, Keyed.get?_insert, if_pos rfl]
        exact ih h

/-- A folder that something is written in keeps what it has. -/
theorem exists_put_folder (new : Entry) (entries : List (FileName × Entry)) {location : List FileName}
    (h : location ≠ []) : ∃ entries', put new (.folder entries) location = .folder entries' ∧
      ∀ name ∈ Keyed.keys entries, name ∈ Keyed.keys entries' := by
  cases location with
  | nil => exact absurd rfl h
  | cons name rest =>
    rw [put.eq_def]
    dsimp only
    split
    · exact ⟨_, rfl, fun k hk => Keyed.mem_keys_insert.mpr (.inr hk)⟩
    · exact ⟨_, rfl, fun k hk => Keyed.mem_keys_insert.mpr (.inr hk)⟩
    · exact ⟨_, rfl, fun k hk => hk⟩

/-- What is written in a folder is there. -/
theorem get?_put_name {tree : Entry} {parent : List FileName} {entries : List (FileName × Entry)}
    (h : tree.get? parent = some (.folder entries)) (new : Entry) (name : FileName) :
    (put new tree (parent ++ [name])).get? (parent ++ [name]) = some new := by
  rw [get?_append, get?_put_append new [name] h, Option.bind_some]
  have hput : put new (.folder entries) [name] = .folder (Keyed.insert name new entries) := by
    rw [put.eq_def]
    dsimp only
    cases Keyed.get? name entries with
    | none => rfl
    | some entry => simp only [put]
  rw [hput, get?, Keyed.get?_insert, if_pos rfl]
  exact get?_nil new

/-! Where nothing is a folder yet, a new entry is put. Other locations are below it, above it, or
apart from it. -/

section

variable {tree new : Entry} {parent : List FileName} {name : FileName}

theorem get?_below {location rest : List FileName}
    (hold : ∀ inside, tree.get? location ≠ some (.folder inside)) (hrest : rest ≠ []) :
    tree.get? (location ++ rest) = none := by
  cases h : tree.get? (location ++ rest) with
  | none => rfl
  | some entry =>
    obtain ⟨inside, hinside⟩ := exists_folder_of_get? hrest h
    exact absurd hinside (hold inside)

theorem get?_put_below {entries : List (FileName × Entry)} {rest : List FileName}
    (hparent : tree.get? parent = some (.folder entries))
    (hnew : ∀ n rest, new.get? (n :: rest) = none) (hrest : rest ≠ []) :
    (put new tree (parent ++ [name])).get? (parent ++ [name] ++ rest) = none := by
  rw [get?_append, get?_put_name hparent, Option.bind_some]
  cases rest with
  | nil => exact absurd rfl hrest
  | cons n rest => exact hnew n rest

theorem exists_folder_above (new : Entry) {entries : List (FileName × Entry)} {location rest : List FileName}
    (hparent : tree.get? parent = some (.folder entries)) (hrest : rest ≠ [])
    (heq : parent ++ [name] = location ++ rest) :
    ∃ before, tree.get? location = some (.folder before) ∧
      ∃ after, (put new tree (parent ++ [name])).get? location = some (.folder after) ∧
        ∀ n ∈ Keyed.keys before, n ∈ Keyed.keys after := by
  obtain ⟨before, hbefore⟩ : ∃ before, tree.get? location = some (.folder before) := by
    obtain ⟨front, last, rfl⟩ := (List.eq_nil_or_concat rest).resolve_left hrest
    rw [List.concat_eq_append, ← List.append_assoc] at heq
    obtain ⟨rfl, -⟩ := List.append_inj' heq rfl
    cases front with
    | nil => exact ⟨entries, by rwa [List.append_nil] at hparent⟩
    | cons n front => exact exists_folder_of_get? (List.cons_ne_nil _ _) hparent
  obtain ⟨after, hput, hkeys⟩ := exists_put_folder new before hrest
  refine ⟨before, hbefore, after, ?_, hkeys⟩
  rw [heq, get?_put_append new rest hbefore, hput]

theorem get?_put_apart (new : Entry) {written location : List FileName}
    (habove : ¬ ∃ rest, written = location ++ rest)
    (hbelow : ¬ ∃ rest, location = written ++ rest) :
    (put new tree written).get? location = tree.get? location :=
  get?_put new tree written location (fun rest h => hbelow ⟨rest, h⟩)
    (fun rest h => habove ⟨rest, h⟩)

end

end TypedClients.Entry
