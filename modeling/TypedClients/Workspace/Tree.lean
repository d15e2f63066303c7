import TypedClients.Keyed
import TypedClients.Workspace.Path

/-!
# File trees

A folder lists its entries in the order in which the file system would give them, which is any
order. A location is the list of the names on the way from the top; `get?_put` says what writing at
one location does to every other.

`put` and `erase` change what is at one location and nothing beside it: `put` keeps the place of a
name that is there and adds a new one at the end, and does nothing where the folder is missing. The
recursion goes down the location, so what is proved of both goes by induction on it.

Entries are files and folders. Links, permissions and times are not here, and a folder may hold two
entries of one name only if it is made so: the first one is found.
-/

namespace TypedClients

/-- What a file holds: a text, or bytes that are none. -/
inductive Content where
  | text (text : String)
  | bytes (bytes : List UInt8)
  deriving DecidableEq, Repr

/-- The content that the bytes of a file are. -/
def Content.ofBytes (bytes : List UInt8) : Content :=
  match Text.ofBytes? bytes with
  | some decoded => .text decoded
  | none => .bytes bytes

/-- A file or a folder. -/
inductive Entry where
  | file (content : Content)
  | folder (entries : List (FileName × Entry))
  deriving Inhabited

namespace Entry

/-- The entry at a location. -/
def get? : Entry → List FileName → Option Entry
  | entry, [] => some entry
  | .folder entries, name :: rest =>
    match Keyed.get? name entries with
    | some entry => entry.get? rest
    | none => none
  | .file _, _ :: _ => none

/-- The tree with `new` at a location. The folder that it is to be in has to be there, or else
nothing is changed. -/
def put (new : Entry) : Entry → List FileName → Entry
  | _, [] => new
  | .folder entries, name :: rest =>
    match Keyed.get? name entries, rest with
    | some entry, rest => .folder (Keyed.insert name (put new entry rest) entries)
    | none, [] => .folder (Keyed.insert name new entries)
    | none, _ :: _ => .folder entries
  | .file content, _ :: _ => .file content

/-- The tree without what is at a location. -/
def erase : Entry → List FileName → Entry
  | entry, [] => entry
  | .folder entries, [name] => .folder (entries.filter fun e => e.1 != name)
  | .folder entries, name :: rest =>
    match Keyed.get? name entries with
    | some entry => .folder (Keyed.insert name (entry.erase rest) entries)
    | none => .folder entries
  | .file content, _ :: _ => .file content

/-- Whether the entry is a folder. -/
def isFolder : Entry → Bool
  | .folder _ => true
  | .file _ => false

mutual

/-- The files of the tree, each with its location, in the order of the entries. -/
def files : Entry → List (List FileName × Content)
  | .file content => [([], content)]
  | .folder entries => filesOfEntries entries

/-- The files of a folder's entries. -/
def filesOfEntries : List (FileName × Entry) → List (List FileName × Content)
  | [] => []
  | (name, entry) :: rest =>
    entry.files.map (fun (location, content) => (name :: location, content))
      ++ filesOfEntries rest

end

/-- After a file is written, another location outside it holds what it held. -/
theorem get?_put (new : Entry) (tree : Entry) (written other : List FileName)
    (happ : ∀ r, other ≠ written ++ r) (happ' : ∀ r, written ≠ other ++ r) :
    (put new tree written).get? other = tree.get? other := by
  induction written generalizing tree other with
  | nil => exact absurd rfl (happ other)
  | cons name rest ih =>
    cases other with
    | nil => exact absurd rfl (happ' (name :: rest))
    | cons n r =>
      cases tree with
      | file content => rfl
      | folder entries =>
        by_cases hn : n = name
        · subst hn
          have h₁ : ∀ x, r ≠ rest ++ x := fun x hx => happ x (by rw [hx]; rfl)
          have h₂ : ∀ x, rest ≠ r ++ x := fun x hx => happ' x (by rw [hx]; rfl)
          cases hk : Keyed.get? n entries with
          | some entry => simp [put, get?, hk, Keyed.get?_insert, ih entry r h₁ h₂]
          | none =>
            cases rest with
            | nil => exact absurd rfl (h₁ r)
            | cons _ _ => simp [put, get?, hk]
        · cases hk : Keyed.get? name entries with
          | some entry => simp [put, get?, hk, Keyed.get?_insert, hn]
          | none =>
            cases rest with
            | nil => simp [put, get?, hk, Keyed.get?_insert, hn]
            | cons _ _ => simp [put, get?, hk]

end Entry

end TypedClients
