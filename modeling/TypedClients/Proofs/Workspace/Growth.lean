import TypedClients.Proofs.Workspace.Tree
import TypedClients.Workspace.Basic
import Mathlib.Data.Set.Basic

/-!
# Workspaces that grow

Writing makes folders, and puts files at some places; everything else stays. `Grows places before
after` says this of two workspaces: `after` has the folders of `before`, with what is in them, and
away from `places` it has its files and no others. Where a path leads to anything in `before`, it
leads to the same location in `after` (`Grows.locate`).

## What it is for

Several files are written one after the other, and between them folders are made. What is known of a
path before has to be known after each step. `Grows` can be put one behind the other
(`Grows.trans`), with the places of both, so the growth of a row of steps is that of its steps.

## What is not here

Entries that are taken away (`Workspace.remove`). No command does that.
-/

namespace TypedClients.Workspace

/-- The tree of `after` comes from that of `before` by making folders, and by writing files at the
places. -/
structure Grows (places : Set (List FileName)) (before after : Workspace) : Prop where
  home_eq : after.home = before.home
  folder : ∀ location entries, before.tree.get? location = some (.folder entries) →
    ∃ entries', after.tree.get? location = some (.folder entries') ∧
      ∀ name ∈ Keyed.keys entries, name ∈ Keyed.keys entries'
  file_iff : ∀ location content, location ∉ places →
    (after.tree.get? location = some (.file content) ↔
      before.tree.get? location = some (.file content))

namespace Grows

variable {places : Set (List FileName)} {before middle after : Workspace}

theorem refl (places : Set (List FileName)) (w : Workspace) : Grows places w w :=
  ⟨rfl, fun _ entries h => ⟨entries, h, fun _ hname => hname⟩, fun _ _ _ => Iff.rfl⟩

theorem mono {more : Set (List FileName)} (h : Grows places before after) (hsub : places ⊆ more) :
    Grows more before after :=
  ⟨h.home_eq, h.folder, fun location content hnot =>
    h.file_iff location content fun hplace => hnot (hsub hplace)⟩

theorem trans (h : Grows places before middle) (h' : Grows places middle after) :
    Grows places before after where
  home_eq := h'.home_eq.trans h.home_eq
  folder location entries hfolder := by
    obtain ⟨_, hmiddle, hkeys⟩ := h.folder location entries hfolder
    obtain ⟨entries', hafter, hkeys'⟩ := h'.folder location _ hmiddle
    exact ⟨entries', hafter, fun name hname => hkeys' name (hkeys name hname)⟩
  file_iff location content hnot :=
    (h'.file_iff location content hnot).trans (h.file_iff location content hnot)

/-- Steps that can be taken lead to the same location. -/
theorem follow (h : Grows places before after) {from_ location : List FileName} {steps : List Step}
    (hfollow : Workspace.follow before.tree from_ steps = .ok location) :
    Workspace.follow after.tree from_ steps = .ok location := by
  induction steps generalizing from_ with
  | nil => exact hfollow
  | cons step steps ih =>
    rw [Workspace.follow] at hfollow ⊢
    split at hfollow
    · next entries hentries =>
      obtain ⟨entries', hafter, hkeys⟩ := h.folder from_ entries hentries
      rw [hafter]
      cases step with
      | here => exact ih hfollow
      | up => exact ih hfollow
      | name name =>
        dsimp only at hfollow ⊢
        split at hfollow
        · next hname =>
          rw [if_pos (hkeys name hname)]
          exact ih hfollow
        · cases hfollow
    · cases hfollow
    · cases hfollow

theorem start_eq (h : Grows places before after) (path : Path) :
    after.start path = before.start path := by
  rw [start, start, h.home_eq]

/-- A path that leads to anything goes on leading there. -/
theorem locate (h : Grows places before after) {text : String} {location : List FileName}
    (hlocate : before.locate text = .ok location) : after.locate text = .ok location := by
  rw [Workspace.locate] at hlocate ⊢
  split at hlocate
  · cases hlocate
  · next htext =>
    rw [if_neg htext, h.start_eq]
    exact h.follow hlocate

end Grows

/-- A folder has got a new entry, or another one in the place of a file. -/
theorem grows_put {w : Workspace} {parent : List FileName} {entries : List (FileName × Entry)}
    {new : Entry} {name : FileName} (hparent : w.tree.get? parent = some (.folder entries))
    (hold : ∀ inside, w.tree.get? (parent ++ [name]) ≠ some (.folder inside))
    (hnew : ∀ n rest, new.get? (n :: rest) = none) :
    Grows {parent ++ [name]} w { w with tree := Entry.put new w.tree (parent ++ [name]) } := by
  refine ⟨rfl, fun location inside hinside => ?_, fun location content hplace => ?_⟩
  · by_cases ha : ∃ rest, parent ++ [name] = location ++ rest
    · obtain ⟨rest, heq⟩ := ha
      have hrest : rest ≠ [] := by
        rintro rfl
        rw [List.append_nil] at heq
        exact absurd hinside (heq ▸ hold inside)
      obtain ⟨_, hbefore, hafter⟩ := Entry.exists_folder_above new hparent hrest heq
      rw [hinside, Option.some.injEq, Entry.folder.injEq] at hbefore
      exact hbefore ▸ hafter
    · by_cases hb : ∃ rest, location = parent ++ [name] ++ rest
      · obtain ⟨rest, rfl⟩ := hb
        by_cases hrest : rest = []
        · rw [hrest, List.append_nil] at hinside
          exact absurd hinside (hold inside)
        · rw [Entry.get?_below hold hrest] at hinside
          cases hinside
      · exact ⟨inside, (Entry.get?_put_apart new ha hb).trans hinside, fun _ h => h⟩
  · by_cases ha : ∃ rest, parent ++ [name] = location ++ rest
    · obtain ⟨rest, heq⟩ := ha
      have hrest : rest ≠ [] := by
        rintro rfl
        exact hplace (heq.trans (List.append_nil location)).symm
      obtain ⟨_, hbefore, _, hafter, -⟩ := Entry.exists_folder_above new hparent hrest heq
      exact iff_of_false (by simp [hafter]) (by simp [hbefore])
    · by_cases hb : ∃ rest, location = parent ++ [name] ++ rest
      · obtain ⟨rest, rfl⟩ := hb
        have hrest : rest ≠ [] := by
          rintro rfl
          exact hplace (List.append_nil _)
        simp only [Entry.get?_put_below hparent hnew hrest, Entry.get?_below hold hrest]
      · simp only [Entry.get?_put_apart new ha hb]

end TypedClients.Workspace
