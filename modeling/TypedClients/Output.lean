import TypedClients.Formatter
import TypedClients.Processor

/-!
# Output

A generated file is put together from fragments, one after the other on lines of their own,
formatted, and then processed. Nothing is written before this is done.

A file is made ready by joining its fragments, formatting the text, and applying the processors to
what comes out. So processors see what the formatter has left, and a formatter that fails keeps the
file from being made ready. `write` puts the file at its path, making the folders above it where
they are missing.

Files are written in order and without taking anything back: after a failure the files before it are
there.
-/

namespace TypedClients

/-- A file that is ready to be written. -/
structure StagedFile where
  path : String
  content : String
  deriving DecidableEq, Repr

namespace StagedFile

/-- Makes a file ready. -/
def ofFragments (format : Formatting) (processors : List Processor) (path : String)
    (fragments : List String) : Except OutputError StagedFile := do
  let formatted ← format path ("\n".intercalate fragments)
  .ok ⟨path, Processor.applyAll processors formatted⟩

/-- Writes a file. -/
def write (file : StagedFile) : Writing OutputError Unit :=
  ExceptT.mk do
    let result ← (Workspace.write file.path file.content).run
    pure (result.mapError (.file file.path))

/-- Writes files in order. Those before one that fails stay written. -/
def writeAll (files : List StagedFile) : Writing OutputError Unit :=
  files.forM write

end StagedFile

end TypedClients
