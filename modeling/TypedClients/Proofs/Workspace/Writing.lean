import TypedClients.Proofs.Outcome
import TypedClients.Proofs.Workspace.Growth

/-!
# Writing a file

Folders are made where they are missing, whatever comes of it (`makesFolders_makeFolders`), and a
file is put at its place or nothing is done (`placeFile_places`). So a file that is written is at
the end of its path, and all other files are what they were (`write_places`).

## How it is proved

Writing follows the path, makes each folder that is missing and then places the file. Each of these
steps is a computation on the workspace that may fail, and `MakesFolders` is kept by sequencing, as
it does not ask whether one failed. The place of a file is known before anything is made, since
folders that are made do not change where a path leads.

## What is not here

The new file beside the old one, through which a file is replaced at once. It is not in the model,
so nothing can be said of a machine that stops.
-/

namespace TypedClients.Workspace

variable {ε α β : Type}

/-! ### Folders -/

/-- The computation changes no file, whether it fails or not. -/
def MakesFolders (action : Writing ε α) : Prop :=
  ∀ w, Grows ∅ w (action.run.run w).2

theorem makesFolders_pure (a : α) : MakesFolders (pure a : Writing ε α) :=
  fun w => .refl ∅ w

theorem makesFolders_throw (e : ε) : MakesFolders (throw e : Writing ε α) :=
  fun w => .refl ∅ w

theorem makesFolders_get : MakesFolders (get : Writing ε Workspace) :=
  fun w => .refl ∅ w

theorem makesFolders_bind {action : Writing ε α} {next : α → Writing ε β}
    (h : MakesFolders action) (hnext : ∀ a, MakesFolders (next a)) :
    MakesFolders (action >>= next) := by
  intro w
  have hw := h w
  rw [run_bind]
  split
  · next a middle hrun =>
    rw [hrun] at hw
    exact hw.trans (hnext a middle)
  · next e middle hrun =>
    rw [hrun] at hw
    exact hw

theorem makesFolders_lift {ε' : Type} {action : Writing ε' α} (h : MakesFolders action) :
    MakesFolders (ExceptT.lift action.run : Writing ε (Except ε' α)) :=
  fun w => h w

theorem run_get (w : Workspace) : (get : Writing ε Workspace).run.run w = (.ok w, w) := rfl

theorem run_makeFolder (path : Path) (w : Workspace) :
    (∃ fault, (makeFolder path).run.run w = (.error fault, w)) ∨
      ∃ parent entries name, w.tree.get? parent = some (.folder entries) ∧
        name ∉ Keyed.keys entries ∧ (makeFolder path).run.run w
          = (.ok (), { w with tree := Entry.put (.folder []) w.tree (parent ++ [name]) }) := by
  rw [makeFolder, run_bind, run_get]
  simp only
  split
  · exact .inl ⟨_, rfl⟩
  · next name _ =>
    cases follow w.tree (w.start path) path.steps.dropLast with
    | error fault => exact .inl ⟨fault, rfl⟩
    | ok parent =>
      rw [makeFolder.liftExcept, pure_bind]
      cases hparent : w.tree.get? parent with
      | none => exact .inl ⟨_, rfl⟩
      | some entry =>
        cases entry with
        | file content => exact .inl ⟨_, rfl⟩
        | folder entries =>
          dsimp only
          by_cases hname : name ∈ Keyed.keys entries
          · rw [if_pos hname]
            exact .inl ⟨_, rfl⟩
          · rw [if_neg hname]
            exact .inr ⟨parent, entries, name, hparent, hname, rfl⟩
  · cases follow w.tree (w.start path) path.steps with
    | error fault => exact .inl ⟨fault, rfl⟩
    | ok location => exact .inl ⟨_, rfl⟩

theorem makesFolders_makeFolder (path : Path) : MakesFolders (makeFolder path) := by
  intro w
  rcases run_makeFolder path w with ⟨fault, h⟩ | ⟨parent, entries, name, hparent, hname, h⟩
  · rw [h]
    exact .refl ∅ w
  · rw [h]
    have hnone : w.tree.get? (parent ++ [name]) = none := by
      rw [Entry.get?_append, hparent, Option.bind_some, Entry.get?,
        Keyed.get?_eq_none_iff.mpr hname]
    have hgrows : Grows {parent ++ [name]} w
        { w with tree := Entry.put (.folder []) w.tree (parent ++ [name]) } :=
      grows_put hparent (fun inside => by rw [hnone]; exact Option.some_ne_none _ |>.symm)
        (fun _ _ => rfl)
    refine ⟨rfl, hgrows.folder, fun location content _ => ?_⟩
    -- At the new folder itself there was nothing, and there is no file.
    by_cases hlocation : location = parent ++ [name]
    · subst hlocation
      dsimp only
      rw [Entry.get?_put_name hparent, hnone]
      simp
    · exact hgrows.file_iff location content hlocation

theorem makesFolders_orFolder {path : Path} {making : Writing FileFault Unit}
    (h : MakesFolders making) : MakesFolders (orFolder path making) := by
  refine makesFolders_bind (makesFolders_lift h) fun outcome => ?_
  cases outcome with
  | ok _ => exact makesFolders_pure ()
  | error fault =>
    refine makesFolders_bind makesFolders_get fun w => ?_
    split
    · exact makesFolders_pure ()
    · exact makesFolders_throw fault

theorem makesFolders_makeFolders (path : Path) (count : Nat) :
    MakesFolders (makeFolders path count) := by
  induction count with
  | zero => exact makesFolders_pure ()
  | succ count ih =>
    rw [makeFolders]
    refine makesFolders_bind (makesFolders_lift (makesFolders_makeFolder _)) fun outcome => ?_
    split
    · exact makesFolders_pure ()
    · exact makesFolders_bind ih fun _ => makesFolders_orFolder (makesFolders_makeFolder _)
    · exact makesFolders_orFolder (makesFolders_throw _)

/-! ### Files -/

theorem follow_append (tree : Entry) (from_ : List FileName) (steps rest : List Step) :
    follow tree from_ (steps ++ rest)
      = follow tree from_ steps >>= fun location => follow tree location rest := by
  induction steps generalizing from_ with
  | nil => rfl
  | cons step steps ih =>
    rw [List.cons_append, follow, follow]
    cases tree.get? from_ with
    | none => rfl
    | some entry =>
      cases entry with
      | file content => rfl
      | folder entries =>
        cases step with
        | here => exact ih from_
        | up => exact ih from_.dropLast
        | name name =>
          dsimp only
          split
          · exact ih (from_ ++ [name])
          · rfl

theorem run_placeFile (text : String) (content : Content) (w : Workspace) :
    (∃ fault, (placeFile text content).run.run w = (.error fault, w)) ∨
      ∃ parent entries name, (Path.ofText text).steps.getLast? = some (.name name) ∧
        Path.asksForFolder text = false ∧
        follow w.tree (w.start (Path.ofText text)) (Path.ofText text).steps.dropLast
          = .ok parent ∧
        w.tree.get? parent = some (.folder entries) ∧
        (∀ inside, Keyed.get? name entries ≠ some (.folder inside)) ∧
        (placeFile text content).run.run w
          = (.ok (), { w with tree := Entry.put (.file content) w.tree (parent ++ [name]) }) := by
  rw [placeFile, run_bind, run_get]
  dsimp only
  split
  · next name hname =>
    cases hfollow : follow w.tree (w.start (Path.ofText text))
        (Path.ofText text).steps.dropLast with
    | error fault => exact .inl ⟨fault, rfl⟩
    | ok parent =>
      dsimp only
      cases hparent : w.tree.get? parent with
      | none => exact .inl ⟨_, rfl⟩
      | some entry =>
        cases entry with
        | file content => exact .inl ⟨_, rfl⟩
        | folder entries =>
          dsimp only
          by_cases hslash : Path.asksForFolder text = true
          · rw [if_pos hslash]
            exact .inl ⟨_, rfl⟩
          · rw [if_neg hslash]
            split
            · exact .inl ⟨_, rfl⟩
            · next hold =>
              exact .inr ⟨parent, entries, name, hname, Bool.eq_false_iff.mpr hslash, rfl, hparent,
                hold, rfl⟩
  · exact .inl ⟨_, rfl⟩

/-- A path leads to the file in the folder that all but its last step lead to. -/
theorem locate_eq {w : Workspace} {text : String} {name : FileName} {parent : List FileName}
    {entries : List (FileName × Entry)}
    (hlast : (Path.ofText text).steps.getLast? = some (.name name))
    (hslash : Path.asksForFolder text = false)
    (hfollow : follow w.tree (w.start (Path.ofText text)) (Path.ofText text).steps.dropLast
      = .ok parent)
    (hparent : w.tree.get? parent = some (.folder entries)) (hname : name ∈ Keyed.keys entries) :
    w.locate text = .ok (parent ++ [name]) := by
  have hempty : ¬ text.isEmpty = true := by
    intro h
    rw [String.isEmpty_iff] at h
    have hsteps : (Path.ofText "").steps = [] := by decide
    rw [h, hsteps] at hlast
    cases hlast
  rw [locate, if_neg hempty, if_neg (Bool.eq_false_iff.mp hslash), List.append_nil,
    ← List.dropLast_append_getLast? _ hlast, follow_append, hfollow]
  show follow w.tree parent [.name name] = _
  rw [follow, hparent]
  dsimp only
  rw [if_pos hname, follow]

/-- The file that the path leads to holds the content, and no other one has changed. -/
def Places (text : String) (content : Content) (before after : Workspace) : Prop :=
  ∃ location, after.locate text = .ok location ∧
    after.tree.get? location = some (.file content) ∧ Grows {location} before after

/-- Placing a file does nothing, or puts it where the path leads to from then on. -/
theorem placeFile_places (text : String) (content : Content) (w : Workspace) :
    (∃ fault, (placeFile text content).run.run w = (.error fault, w)) ∨
      ∃ after, (placeFile text content).run.run w = (.ok (), after) ∧
        Places text content w after := by
  rcases run_placeFile text content w with h |
    ⟨parent, entries, name, hlast, hslash, hfollow, hparent, hold, hrun⟩
  · exact .inl h
  · have hold' : ∀ inside, w.tree.get? (parent ++ [name]) ≠ some (.folder inside) := by
      intro inside h
      rw [Entry.get?_append, hparent, Option.bind_some, Entry.get?] at h
      cases hentry : Keyed.get? name entries with
      | none => simp [hentry] at h
      | some entry =>
        simp only [hentry, Entry.get?_nil, Option.some.injEq] at h
        exact hold inside (h ▸ hentry)
    have hput := Entry.get?_put_name hparent (.file content) name
    have hgrows : Grows {parent ++ [name]} w
        { w with tree := Entry.put (.file content) w.tree (parent ++ [name]) } :=
      grows_put hparent hold' (fun _ _ => rfl)
    obtain ⟨entries', hparent', -⟩ := hgrows.folder parent entries hparent
    have hname : name ∈ Keyed.keys entries' := by
      rw [Entry.get?_append, hparent', Option.bind_some, Entry.get?] at hput
      cases hentry : Keyed.get? name entries' with
      | none => simp [hentry] at hput
      | some entry => exact Keyed.mem_keys_iff.mpr ⟨entry, hentry⟩
    refine .inr ⟨_, hrun, parent ++ [name], ?_, Entry.get?_put_name hparent _ _, hgrows⟩
    refine locate_eq hlast hslash ?_ hparent' hname
    rw [hgrows.start_eq]
    exact hgrows.follow hfollow

/-- Writing a file changes no file, or puts one where the path leads to from then on. -/
theorem write_places (text content : String) (w : Workspace) :
    (∃ fault after, (write text content).run.run w = (.error fault, after) ∧ Grows ∅ w after) ∨
      ∃ after, (write text content).run.run w = (.ok (), after) ∧
        Places text (.text content) w after := by
  have hfolders := makesFolders_makeFolders ((Path.ofText text).parent?.getD (Path.ofText text))
    ((Path.ofText text).parent?.getD (Path.ofText text)).steps.length w
  rw [write, run_bind]
  split
  · next middle hrun =>
    rw [hrun] at hfolders
    rcases placeFile_places text (.text content) middle with ⟨fault, h⟩ | ⟨after, h, hplaces⟩
    · exact .inl ⟨fault, middle, h, hfolders⟩
    · obtain ⟨location, hlocate, hget, hgrows⟩ := hplaces
      exact .inr ⟨after, h, location, hlocate, hget,
        (hfolders.mono (Set.empty_subset _)).trans hgrows⟩
  · next fault middle hrun =>
    rw [hrun] at hfolders
    exact .inl ⟨fault, middle, rfl, hfolders⟩

end TypedClients.Workspace
