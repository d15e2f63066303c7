import TypedClients.Workspace.Path
import TypedClients.Workspace.Tree

/-!
# Workspaces

A workspace is a file tree and the folder in it where the work is done. Paths are followed step by
step: every step but a last name needs a folder to stand in. A path is a text, and what it leads to
is found by its steps (`locate`); a file that a folder lists is found by its name in the folder
(`locateIn`), which need not be a text.

Writing is a computation on the workspace, whose changes remain when a later part of it fails. A
file is written through a new file beside it that then takes its name, so it is either replaced as
a whole or left alone.

## What is not here

* Permissions: every folder can be listed, every file can be read and replaced, and a folder can
  be made wherever there is a folder to make it in. The faults are those that come of what is at a
  path, and of a file that is no text.
* Links, and anything else that is neither a file nor a folder; so a path without `..` leads to one
  location, and a location has one path from the root.
* Other programs: between two steps of a computation nothing changes. A run of the program is
  alone with its workspace.
* What is on the disk when a machine stops in the middle of writing; the new file beside the old one
  is not modelled, only that it takes its name at once.
-/

namespace TypedClients

/-- What can go wrong with a file. -/
inductive FileFault where
  | notFound
  | isFolder
  | notFolder
  | alreadyExists
  /-- The file is no text. -/
  | notText
  deriving DecidableEq, Repr

/-- The short name of a fault. -/
def FileFault.tag : FileFault → String
  | .notFound => "<io:NotFound>"
  | .isFolder => "<io:IsADirectory>"
  | .notFolder => "<io:NotADirectory>"
  | .alreadyExists => "<io:AlreadyExists>"
  | .notText => "<io:InvalidData>"

/-- The wording of a fault on a terminal. -/
def FileFault.wording : FileFault → String
  | .notFound => "No such file or directory (os error 2)"
  | .isFolder => "Is a directory (os error 21)"
  | .notFolder => "Not a directory (os error 20)"
  | .alreadyExists => "File exists (os error 17)"
  | .notText => "stream did not contain valid UTF-8"

/-- A file tree, and the location of the working folder in it. -/
structure Workspace where
  tree : Entry
  home : List FileName

/-- A computation that changes the workspace. -/
abbrev Writing (ε α : Type) := ExceptT ε (StateM Workspace) α

namespace Workspace

/-- Follows steps from a location. -/
def follow (tree : Entry) : (at_ : List FileName) → List Step → Except FileFault (List FileName)
  | at_, [] => .ok at_
  | at_, step :: rest =>
    match tree.get? at_ with
    | some (.folder entries) =>
      match step with
      | .here => follow tree at_ rest
      | .up => follow tree at_.dropLast rest
      | .name name =>
        if name ∈ Keyed.keys entries then follow tree (at_ ++ [name]) rest else .error .notFound
    | some (.file _) => .error .notFolder
    | none => .error .notFound

/-- The location from which a path is followed. -/
def start (w : Workspace) (path : Path) : List FileName :=
  if path.absolute then [] else w.home

/-- The location of what a path leads to. -/
def locate (w : Workspace) (text : String) : Except FileFault (List FileName) :=
  let path := Path.ofText text
  if text.isEmpty then .error .notFound
  else follow w.tree (w.start path)
    (path.steps ++ if Path.asksForFolder text then [.here] else [])

/-- The location of a name in the folder that a path leads to. -/
def locateIn (w : Workspace) (folder : String) (name : FileName) :
    Except FileFault (List FileName) :=
  let path := Path.ofText folder
  follow w.tree (w.start path) (path.steps ++ [.name name])

/-- What is at a location. -/
def entryAt (w : Workspace) (location : List FileName) : Except FileFault Entry :=
  match w.tree.get? location with
  | some entry => .ok entry
  | none => .error .notFound

/-- What a path leads to. -/
def entry (w : Workspace) (text : String) : Except FileFault Entry := do
  w.entryAt (← w.locate text)

/-- Whether there is anything at a path. -/
def exists_ (w : Workspace) (text : String) : Bool :=
  (w.entry text).toOption.isSome

/-- The text of the file at a location. -/
def textAt (w : Workspace) (location : List FileName) : Except FileFault String := do
  match ← w.entryAt location with
  | .file (.text text) => .ok text
  | .file (.bytes _) => .error .notText
  | .folder _ => .error .isFolder

/-- The text of the file at a path. -/
def readText (w : Workspace) (text : String) : Except FileFault String := do
  w.textAt (← w.locate text)

/-- The text of the file with a name in the folder at a path. -/
def readTextIn (w : Workspace) (folder : String) (name : FileName) : Except FileFault String := do
  w.textAt (← w.locateIn folder name)

/-- The names of the files in the folder at a path, in the order in which the folder lists them;
none if there is no such folder. -/
def fileNames (w : Workspace) (text : String) : List FileName :=
  match w.entry text with
  | .ok (.folder entries) => (entries.filter fun e => !e.2.isFolder).map Prod.fst
  | _ => []

/-- Folders one in the other. -/
def nestedFolders : List String → Entry
  | [] => .folder []
  | name :: rest => .folder [(.text name, nestedFolders rest)]

/-- A workspace with nothing but its working folder. -/
def empty (home : List String) : Workspace :=
  ⟨nestedFolders home, home.map .text⟩

/-! ### Writing -/

/-- Changes the tree. -/
def setEntry (location : List FileName) (entry : Entry) : StateM Workspace Unit :=
  modify fun w => { w with tree := Entry.put entry w.tree location }

/-- Makes one folder, in a folder that is there. -/
def makeFolder (path : Path) : Writing FileFault Unit := do
  let w ← get
  match path.steps.getLast? with
  | none => throw .notFound
  | some (.name name) =>
    let parent ← liftExcept (follow w.tree (w.start path) path.steps.dropLast)
    match w.tree.get? parent with
    | some (.folder entries) =>
      if name ∈ Keyed.keys entries then throw .alreadyExists
      else setEntry (parent ++ [name]) (.folder [])
    | some (.file _) => throw .notFolder
    | none => throw .notFound
  | some _ => do
    let _ ← liftExcept (follow w.tree (w.start path) path.steps)
    throw .alreadyExists
where
  /-- A result as a computation. -/
  liftExcept {α : Type} : Except FileFault α → Writing FileFault α
    | .ok a => pure a
    | .error e => throw e

/-- Whether the path leads to a folder. -/
def leadsToFolder (w : Workspace) (path : Path) : Bool :=
  match follow w.tree (w.start path) path.steps with
  | .ok location => ((w.tree.get? location).map Entry.isFolder).getD false
  | .error _ => false

/-- What making the folder `path` comes to: one that is there already is as good as made. -/
def orFolder (path : Path) (making : Writing FileFault Unit) : Writing FileFault Unit := do
  match ← ExceptT.lift making.run with
  | .ok () => pure ()
  | .error fault =>
    let w ← get
    if w.leadsToFolder path then pure () else throw fault

/-- Makes the folder of the first `count` steps of a path, and before it the folders that it is
to be in. -/
def makeFolders (path : Path) : (count : Nat) → Writing FileFault Unit
  | 0 => pure ()
  | count + 1 => do
    let this := { path with steps := path.steps.take (count + 1) }
    match ← ExceptT.lift (makeFolder this).run with
    | .ok () => pure ()
    | .error .notFound => do
      makeFolders path count
      orFolder this (makeFolder this)
    | .error fault => orFolder this (throw fault)

/-- Gives a finished file the name at the end of a path. -/
def placeFile (text : String) (content : Content) : Writing FileFault Unit := do
  let w ← get
  let path := Path.ofText text
  match path.steps.getLast? with
  | some (.name name) =>
    match follow w.tree (w.start path) path.steps.dropLast with
    | .error fault => throw fault
    | .ok parent =>
      match w.tree.get? parent with
      | some (.folder entries) =>
        if Path.asksForFolder text then throw .notFolder
        else
          match Keyed.get? name entries with
          | some (.folder _) => throw .isFolder
          | _ => setEntry (parent ++ [name]) (.file content)
      | some (.file _) => throw .notFolder
      | none => throw .notFound
  | _ => throw .isFolder

/-- Writes a file, in folders that are made where they are missing. -/
def write (text : String) (content : String) : Writing FileFault Unit := do
  let path := Path.ofText text
  let parent := path.parent?.getD path
  makeFolders parent parent.steps.length
  placeFile text (.text content)

/-- Writes a file in a folder that has to be there. -/
def overwrite (text : String) (content : String) : Writing FileFault Unit :=
  placeFile text (.text content)

/-- Puts an entry at a path, in folders that are made where they are missing. A folder that is
there already stays. -/
def put (w : Workspace) (text : String) (entry : Entry) : Workspace :=
  let path := Path.ofText text
  match path.parent? with
  | none => w
  | some parent =>
    let w := ((makeFolders parent parent.steps.length).run.run w).2
    match follow w.tree (w.start path) parent.steps, path.fileName? with
    | .ok folder, some name =>
      if entry.isFolder && w.leadsToFolder path then w
      else { w with tree := Entry.put entry w.tree (folder ++ [name]) }
    | _, _ => w

/-- Removes what is at a path. -/
def remove (w : Workspace) (text : String) : Workspace :=
  match w.locate text with
  | .ok location => { w with tree := w.tree.erase location }
  | .error _ => w

/-- The files below a folder, each with its location there. -/
def locatedBelow (w : Workspace) (folder : List FileName) : List (List FileName × Content) :=
  match w.tree.get? folder with
  | some entry => entry.files
  | none => []

/-- The files under the paths that lead to them, in the order of these. -/
def byPath (files : List (List FileName × Content)) : List (String × Content) :=
  (files.map fun (location, content) =>
    ("/".intercalate (location.map FileName.reading), content)).mergeSort fun a b => !(b.1 < a.1)

/-- The files below a folder under their paths from there. -/
def filesBelow (w : Workspace) (folder : List FileName) : List (String × Content) :=
  byPath (w.locatedBelow folder)

/-- The files below a folder that are new, or hold something else, since `before`. -/
def changedBelow (w before : Workspace) (folder : List FileName) : List (String × Content) :=
  let old := before.locatedBelow folder
  byPath ((w.locatedBelow folder).filter fun (location, content) =>
    match Keyed.get? location old with
    | some o => o != content
    | none => true)

/-- The files below the working folder that are new, or hold something else, since `before`. -/
def changedSince (w before : Workspace) : List (String × Content) :=
  w.changedBelow before before.home

end Workspace

end TypedClients
