import TypedClients.Text.Basic
import TypedClients.Text.Utf8

/-!
# Names and paths

A file system lets a name be any bytes but a slash and zero. Here a name is a text, or else bytes
that are none. The program works with the reading of a name (`FileName.reading`), in which the
replacement character stands for what is no part of a text; so two names can be read alike.

A path is written as a text and kept as one, since messages show it as it was put together. Its
steps say where it leads. Empty steps count for nothing, and neither does a dot, except at the
beginning of a relative path.

What is not here: a path that somebody writes, in the arguments or in the configuration, is a text,
so it leads through names that are texts only. The other names are met where a folder is listed.
-/

namespace TypedClients

/-- A name in a folder: a text, or bytes that are none. -/
inductive FileName where
  | text (text : String)
  | bytes (bytes : List UInt8) (notText : Text.ofBytes? bytes = none)
  deriving DecidableEq, Repr

namespace FileName

instance : Coe String FileName := ⟨.text⟩

/-- A name as it is read, with the replacement character for what is no part of a text. -/
def reading : FileName → String
  | .text name => name
  | .bytes raw _ => Text.ofBytes raw

@[simp] theorem reading_text (name : String) : (FileName.text name).reading = name := rfl

end FileName

/-- A step of a path. -/
inductive Step where
  | here
  | up
  | name (name : FileName)
  deriving DecidableEq, Repr

/-- Where a path leads: from the root or from where one is, by steps. -/
structure Path where
  absolute : Bool
  steps : List Step
  deriving DecidableEq, Repr

namespace Path

/-- The step that a piece of a path is. -/
def stepOf (piece : String) : Step :=
  match piece with
  | "." => .here
  | ".." => .up
  | name => .name (.text name)

/-- Whether a path begins at the root. -/
def isAbsolute (text : String) : Bool :=
  text.toList.head? == some '/'

/-- Whether a path ends in a slash, and so asks for a folder. -/
def asksForFolder (text : String) : Bool :=
  text.toList.getLast? == some '/'

/-- Drops the dots, except one at the beginning of a relative path. -/
def dropDots (absolute : Bool) : List Step → List Step
  | [] => []
  | first :: rest =>
    let rest := rest.filter fun s => s != .here
    if absolute && first == .here then rest else first :: rest

/-- The path that a text is. -/
def ofText (text : String) : Path :=
  let pieces := (Text.splitString '/' text).filter fun piece => !piece.isEmpty
  let absolute := isAbsolute text
  ⟨absolute, dropDots absolute (pieces.map stepOf)⟩

/-- The path without its last step; the root and the empty path have no such part. -/
def parent? (path : Path) : Option Path :=
  if path.steps.isEmpty then none else some { path with steps := path.steps.dropLast }

/-- The name that the last step is. -/
def fileName? (path : Path) : Option FileName :=
  match path.steps.getLast? with
  | some (.name name) => some name
  | _ => none

/-- The name of the file that a text leads to, empty if the last step is no name. -/
def fileName (text : String) : String :=
  ((ofText text).fileName?.map FileName.reading).getD ""

/-- A path that begins where `base` ends. One that begins at the root stays as it is. -/
def join (base text : String) : String :=
  if isAbsolute text then text
  else if base.isEmpty || asksForFolder base then base ++ text
  else base ++ "/" ++ text

/-- Whether a piece of a path counts for nothing. -/
def isIdle (piece : String) : Bool :=
  piece.isEmpty || piece == "."

/-- The pieces of a path without those at the end that count for nothing; the first one counts. -/
def dropIdle : List String → List String
  | [] => []
  | first :: rest => first :: (rest.reverse.dropWhile isIdle).reverse

/-- The text of the folder that a path leads into: its text without the last step. -/
def folderOf (text : String) : String :=
  let folder := "/".intercalate (dropIdle (dropIdle (Text.splitString '/' text)).dropLast)
  if folder.isEmpty && isAbsolute text then "/" else folder

end Path

end TypedClients
