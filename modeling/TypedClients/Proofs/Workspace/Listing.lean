import TypedClients.Proofs.Keyed
import TypedClients.Proofs.Outcome
import TypedClients.Proofs.Workspace.Tree
import TypedClients.Workspace.Basic

/-!
# The order in which folders list their entries

Two trees may differ in nothing but the order in which some of their folders list what they hold
(`Entry.Rearranged`). Whatever is at a location of the one is at that location of the other, up to
such an order itself (`Rearranged.get?`). So paths lead to the same locations, files are read alike,
and a folder has the same files (`Workspace.Rearranged.readText`, `Workspace.Rearranged.fileNames`).

## How it is proved

`Rearranged` is inductive, with a case for each level of the tree, so an entry deep inside may be
rearranged as well as one at the top. `Alike` is what can be seen of two entries at one location:
that they are the same file, or folders with the same names. Paths are followed by what can be seen,
and so are readings; only the list of a folder's files can tell the two trees apart, by its order.

## What is assumed

Where a list is rearranged no name is there twice. In a list with two entries of one name a look-up
would find the first, and so the order would count.
-/

namespace TypedClients

namespace Entry

/-- The same tree, but for the order in which folders list their entries. A folder whose list is
rearranged has no name twice. -/
inductive Rearranged : Entry → Entry → Prop
  | refl (entry : Entry) : Rearranged entry entry
  | trans {first second third : Entry} (head : Rearranged first second)
      (tail : Rearranged second third) : Rearranged first third
  | listed {entries others : List (FileName × Entry)} (nodup : (Keyed.keys entries).Nodup)
      (perm : entries.Perm others) : Rearranged (.folder entries) (.folder others)
  | inside {before after : List (FileName × Entry)} {name : FileName} {entry other : Entry}
      (inner : Rearranged entry other) :
      Rearranged (.folder (before ++ (name, entry) :: after))
        (.folder (before ++ (name, other) :: after))

/-- The same file, or folders with the same names, among them the same files. -/
def Alike : Entry → Entry → Prop
  | .file content, .file other => content = other
  | .folder entries, .folder others =>
    (Keyed.keys entries).Perm (Keyed.keys others) ∧
      ((entries.filter fun e => !e.2.isFolder).map Prod.fst).Perm
        ((others.filter fun e => !e.2.isFolder).map Prod.fst)
  | .file _, .folder _ => False
  | .folder _, .file _ => False

theorem Alike.refl (entry : Entry) : entry.Alike entry := by
  cases entry with
  | file content => rfl
  | folder entries => exact ⟨.refl _, .refl _⟩

theorem Alike.trans {first second third : Entry} (h : first.Alike second)
    (h' : second.Alike third) : first.Alike third := by
  cases first <;> cases second <;> cases third <;> try contradiction
  · exact Eq.trans h h'
  · exact ⟨h.1.trans h'.1, h.2.trans h'.2⟩

theorem Alike.isFolder_eq {entry other : Entry} (h : entry.Alike other) :
    entry.isFolder = other.isFolder := by
  cases entry <;> cases other <;> first | rfl | contradiction

theorem Rearranged.alike {entry other : Entry} (h : entry.Rearranged other) :
    entry.Alike other := by
  induction h with
  | refl entry => exact .refl entry
  | trans _ _ head tail => exact head.trans tail
  | listed _ perm => exact ⟨perm.map _, (perm.filter _).map _⟩
  | inside _ ih =>
    refine ⟨by simp [Keyed.keys], ?_⟩
    rw [List.filter_append, List.filter_append, List.filter_cons, List.filter_cons, ih.isFolder_eq]
    split <;> simp

theorem rel_rearranged_refl (found : Option Entry) : Option.Rel Rearranged found found := by
  cases found with
  | none => exact .none
  | some entry => exact .some (.refl entry)

theorem rel_rearranged_trans {first second third : Option Entry}
    (h : Option.Rel Rearranged first second) (h' : Option.Rel Rearranged second third) :
    Option.Rel Rearranged first third := by
  cases h with
  | none => exact h'
  | some h =>
    cases h' with
    | some h' => exact .some (h.trans h')

/-- At any location both trees have nothing, or entries that are the same up to order. -/
theorem Rearranged.get? {tree other : Entry} (h : tree.Rearranged other) (location : List FileName) :
    Option.Rel Rearranged (tree.get? location) (other.get? location) := by
  induction h generalizing location with
  | refl entry => exact rel_rearranged_refl _
  | trans _ _ head tail => exact rel_rearranged_trans (head location) (tail location)
  | listed nodup perm =>
    cases location with
    | nil => exact .some (.listed nodup perm)
    | cons name rest =>
      rw [Entry.get?, Entry.get?, Keyed.get?_eq_of_perm nodup perm]
      exact rel_rearranged_refl _
  | @inside before after name entry other inner ih =>
    cases location with
    | nil => exact .some (.inside inner)
    | cons step rest =>
      rw [Entry.get?, Entry.get?, Keyed.get?_append, Keyed.get?_append, Keyed.get?, Keyed.get?]
      cases Keyed.get? step before with
      | some found => exact rel_rearranged_refl _
      | none =>
        by_cases hname : name = step
        · rw [if_pos hname, if_pos hname]
          exact ih rest
        · rw [if_neg hname, if_neg hname]
          exact rel_rearranged_refl _

theorem Rearranged.get?_cases {tree other : Entry} (h : tree.Rearranged other)
    (location : List FileName) :
    (tree.get? location = none ∧ other.get? location = none) ∨
      (∃ content, tree.get? location = some (.file content) ∧
        other.get? location = some (.file content)) ∨
      ∃ entries others, tree.get? location = some (.folder entries) ∧
        other.get? location = some (.folder others) ∧ (folder entries).Alike (.folder others) := by
  have hget := h.get? location
  revert hget
  cases tree.get? location with
  | none =>
    cases other.get? location with
    | none => exact fun _ => .inl ⟨rfl, rfl⟩
    | some found => exact fun hget => by cases hget
  | some entry =>
    intro hget
    obtain ⟨found, hfound, hentry⟩ := exists_some_right hget
    rw [hfound]
    have halike := hentry.alike
    cases entry with
    | file content =>
      cases found with
      | file _ =>
        cases halike
        exact .inr (.inl ⟨content, rfl, rfl⟩)
      | folder _ => exact halike.elim
    | folder entries =>
      cases found with
      | file _ => exact halike.elim
      | folder others => exact .inr (.inr ⟨entries, others, rfl, rfl, halike⟩)

end Entry

namespace Workspace

/-- The same workspace, but for the order in which folders list their entries. -/
structure Rearranged (w other : Workspace) : Prop where
  tree : w.tree.Rearranged other.tree
  home : w.home = other.home

namespace Rearranged

variable {w other : Workspace}

theorem follow {tree other : Entry} (h : tree.Rearranged other) (from_ : List FileName)
    (steps : List Step) :
    Workspace.follow tree from_ steps = Workspace.follow other from_ steps := by
  induction steps generalizing from_ with
  | nil => rfl
  | cons step steps ih =>
    rw [Workspace.follow, Workspace.follow]
    rcases h.get?_cases from_ with
      ⟨htree, hother⟩ | ⟨content, htree, hother⟩ | ⟨entries, others, htree, hother, halike⟩
    · rw [htree, hother]
    · rw [htree, hother]
    · rw [htree, hother]
      cases step with
      | here => exact ih from_
      | up => exact ih from_.dropLast
      | name name =>
        simp only [halike.1.mem_iff]
        split
        · exact ih (from_ ++ [name])
        · rfl

theorem locate (h : w.Rearranged other) (text : String) : w.locate text = other.locate text := by
  rw [Workspace.locate, Workspace.locate, start, start, h.home, follow h.tree]

theorem locateIn (h : w.Rearranged other) (folder : String) (name : FileName) :
    w.locateIn folder name = other.locateIn folder name := by
  rw [Workspace.locateIn, Workspace.locateIn, start, start, h.home, follow h.tree]

theorem textAt (h : w.Rearranged other) : w.textAt = other.textAt := by
  funext location
  unfold Workspace.textAt entryAt
  rcases h.tree.get?_cases location with
    ⟨htree, hother⟩ | ⟨content, htree, hother⟩ | ⟨entries, others, htree, hother, -⟩
  · rw [htree, hother]
  · rw [htree, hother]
  · rw [htree, hother]
    rfl

theorem readText (h : w.Rearranged other) (text : String) :
    w.readText text = other.readText text := by
  rw [Workspace.readText, Workspace.readText, h.locate, h.textAt]

theorem readTextIn (h : w.Rearranged other) (folder : String) (name : FileName) :
    w.readTextIn folder name = other.readTextIn folder name := by
  rw [Workspace.readTextIn, Workspace.readTextIn, h.locateIn, h.textAt]

/-- A folder has the same files, in some order. -/
theorem fileNames (h : w.Rearranged other) (text : String) :
    (w.fileNames text).Perm (other.fileNames text) := by
  unfold Workspace.fileNames entry entryAt
  rw [h.locate]
  cases other.locate text with
  | error fault => exact .refl _
  | ok location =>
    dsimp only [bind, Except.bind]
    rcases h.tree.get?_cases location with
      ⟨htree, hother⟩ | ⟨content, htree, hother⟩ | ⟨entries, others, htree, hother, halike⟩
    · rw [htree, hother]
    · rw [htree, hother]
    · rw [htree, hother]
      exact halike.2

end Rearranged

end Workspace

end TypedClients
