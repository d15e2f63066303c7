import TypedClients.Output
import TypedClients.Proofs.Keyed
import TypedClients.Proofs.Workspace.Writing

/-!
# Writing several files

Files are written one after the other, until one cannot be. What has been written by then is
written: of the files that lead to one place the last one is there, and no file elsewhere has
changed (`Written`). There is nothing that takes a written file back.

## What is proved

`run_writeAll` — the files are written up to the first one that cannot be, and the workspace is then
the former one with just these files written (`Written`). `Written.forall_readText_iff` says when
all of them can be read back. Whether two paths lead to one place is asked of the workspace and not
of the texts, as a path may be written in several ways.

## What is not here

Folders. They are made where they are missing, and no statement says which ones; a file that is read
back is there, so its folder is.
-/

namespace TypedClients

namespace Workspace

/-- What is read depends on where the path leads. -/
theorem readText_eq_of_locate_eq {w : Workspace} {text other : String}
    (h : w.locate text = w.locate other) : w.readText text = w.readText other := by
  rw [readText, readText, h]

theorem readText_eq_ok_iff {w : Workspace} {text content : String} {location : List FileName}
    (h : w.locate text = .ok location) : w.readText text = .ok content ↔
      w.tree.get? location = some (.file (.text content)) := by
  unfold readText textAt entryAt
  rw [h]
  dsimp only [bind, Except.bind]
  cases w.tree.get? location with
  | none => simp
  | some entry =>
    cases entry with
    | folder entries => simp
    | file content =>
      cases content with
      | text text => simp
      | bytes bytes => simp

end Workspace

namespace StagedFile

/-- The locations that the paths of the files lead to. -/
def places (w : Workspace) (files : List StagedFile) : Set (List FileName) :=
  {location | ∃ file ∈ files, w.locate file.path = .ok location}

/-- The workspace `after` is `before` with the files written. -/
structure Written (files : List StagedFile) (before after : Workspace) : Prop where
  grows : Workspace.Grows (places after files) before after
  located : ∀ file ∈ files, ∃ location, after.locate file.path = .ok location
  /-- The last file for a place is there. -/
  last : ∀ earlier file later, files = earlier ++ file :: later →
    (∀ other ∈ later, after.locate other.path ≠ after.locate file.path) →
    after.readText file.path = .ok file.content

theorem written_nil {before after : Workspace} (h : Workspace.Grows ∅ before after) :
    Written [] before after where
  grows := h.mono (Set.empty_subset _)
  located _ hfile := absurd hfile List.not_mem_nil
  last earlier _ _ heq := absurd heq (by simp)

theorem written_cons {file : StagedFile} {rest : List StagedFile}
    {before middle after : Workspace}
    (hfirst : Workspace.Places file.path (.text file.content) before middle)
    (hrest : Written rest middle after) : Written (file :: rest) before after := by
  obtain ⟨location, hlocate, hget, hgrows⟩ := hfirst
  have hlocate' := hrest.grows.locate hlocate
  have hsub : places after rest ⊆ places after (file :: rest) :=
    fun _ ⟨other, hother, h⟩ => ⟨other, List.mem_cons_of_mem _ hother, h⟩
  refine ⟨?_, ?_, ?_⟩
  · refine (hgrows.mono ?_).trans (hrest.grows.mono hsub)
    rintro _ rfl
    exact ⟨file, List.mem_cons_self, hlocate'⟩
  · intro other hother
    rcases List.mem_cons.mp hother with rfl | hother
    · exact ⟨location, hlocate'⟩
    · exact hrest.located other hother
  · intro earlier other later heq hlater
    cases earlier with
    | cons first earlier =>
      obtain ⟨-, heq⟩ := List.cons.inj heq
      exact hrest.last earlier other later heq hlater
    | nil =>
      obtain ⟨rfl, rfl⟩ := List.cons.inj heq
      -- No later file is for this place, so what has been put there stays.
      have hplace : location ∉ places after rest :=
        fun ⟨later, hmem, h⟩ => hlater later hmem (h.trans hlocate'.symm)
      exact (Workspace.readText_eq_ok_iff hlocate').mpr
        ((hrest.grows.file_iff location _ hplace).mpr hget)

theorem run_mapError {ε ε' : Type} (action : Writing ε Unit) (f : ε → ε') (w : Workspace) :
    (ExceptT.mk (action.run >>= fun result => pure (result.mapError f)) :
      Writing ε' Unit).run.run w
      = ((action.run.run w).1.mapError f, (action.run.run w).2) := rfl

theorem run_write (file : StagedFile) (w : Workspace) :
    (∃ fault after, (write file).run.run w = (.error (.file file.path fault), after) ∧
        Workspace.Grows ∅ w after) ∨
      ∃ after, (write file).run.run w = (.ok (), after) ∧
        Workspace.Places file.path (.text file.content) w after := by
  rw [write, run_mapError]
  rcases Workspace.write_places file.path file.content w with
    ⟨fault, after, h, hgrows⟩ | ⟨after, h, hplaces⟩
  · rw [h]
    exact .inl ⟨fault, after, rfl, hgrows⟩
  · rw [h]
    exact .inr ⟨after, rfl, hplaces⟩

/-- How writing files can end: with all of them written, or at one that cannot be, with those
before it written. -/
theorem run_writeAll (files : List StagedFile) (w : Workspace) :
    (∃ after, (writeAll files).run.run w = (.ok (), after) ∧ Written files w after) ∨
      ∃ written failed rest fault after, files = written ++ failed :: rest ∧
        (writeAll files).run.run w = (.error (.file failed.path fault), after) ∧
        Written written w after := by
  induction files generalizing w with
  | nil => exact .inl ⟨w, rfl, written_nil (.refl ∅ w)⟩
  | cons file files ih =>
    have hcons : writeAll (file :: files) = write file >>= fun _ => writeAll files :=
      List.forM_cons ..
    rw [hcons, run_bind]
    rcases run_write file w with ⟨fault, after, hrun, hgrows⟩ | ⟨middle, hrun, hplaces⟩
    · rw [hrun]
      exact .inr ⟨[], file, files, fault, after, rfl, rfl, written_nil hgrows⟩
    · rw [hrun]
      dsimp only
      rcases ih middle with ⟨after, hrest, hwritten⟩ |
        ⟨written, failed, rest, fault, after, rfl, hrest, hwritten⟩
      · exact .inl ⟨after, hrest, written_cons hplaces hwritten⟩
      · exact .inr ⟨file :: written, failed, rest, fault, after, rfl, hrest,
          written_cons hplaces hwritten⟩

/-- After files are written, each of them is there if and only if those for one place do not
differ. -/
theorem Written.forall_readText_iff {files : List StagedFile} {before after : Workspace}
    (h : Written files before after) :
    (∀ file ∈ files, after.readText file.path = .ok file.content) ↔
      ∀ file ∈ files, ∀ other ∈ files, after.locate file.path = after.locate other.path →
        file.content = other.content := by
  constructor
  · intro hread file hfile other hother heq
    have := (hread file hfile).symm.trans
      ((Workspace.readText_eq_of_locate_eq heq).trans (hread other hother))
    exact Except.ok.inj this
  · intro hsame file hfile
    obtain ⟨earlier, last, later, rfl, hplace, hlater⟩ := exists_last_of_mem
      (fun other : StagedFile => after.locate other.path = after.locate file.path) hfile rfl
    have hlast := h.last earlier last later rfl (fun other hother => hplace ▸ hlater other hother)
    rw [Workspace.readText_eq_of_locate_eq hplace.symm, hlast,
      hsame file hfile last (List.mem_append_right _ List.mem_cons_self) hplace.symm]

end StagedFile

end TypedClients
