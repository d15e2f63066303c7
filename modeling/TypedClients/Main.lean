import TypedClients.CommandLine.Run
import TypedClients.Filter.Script.Run

/-!
# The program

The configuration file and the folders of the command are fetched from the disk, the command is run
on them, and the files that it has changed are written back.

## What is fetched

Only the configuration file and the folders that the command names are fetched, with everything
below them, and the command is run on the workspace that they make. What cannot be read ends the
program. The names of files come from the disk as texts; the library itself can tell names apart
that are none (`FileName`).

## What is not proved

Nothing is proved of this module. It is the thin layer between the disk and the workspace, and what
is proved of commands is proved of `Workspace.command`. In particular the disk is written to when
the command has ended, not while it runs.
-/

namespace TypedClients.Disk

/-- What is at a place on the disk. -/
partial def fetchEntry (place : IO.FS.DirEntry) : IO Entry := do
  if ← place.path.isDir then
    let entries ← place.path.readDir
    let fetched ← entries.toList.mapM fun entry => do
      let inner ← fetchEntry entry
      pure (FileName.text entry.fileName, inner)
    pure (.folder fetched)
  else
    let bytes ← IO.FS.readBinFile place.path
    pure (.file (.ofBytes bytes.toList))

/-- Puts what is at a path on the disk into a workspace. -/
def fetch (w : Workspace) (path : String) : IO Workspace := do
  let place : IO.FS.DirEntry := ⟨".", path⟩
  if ← place.path.pathExists then
    let entry ← fetchEntry place
    pure (w.put path entry)
  else pure w

/-- Writes a file to the disk. -/
def store (path : String) (content : Content) : IO Unit := do
  let folder := Path.folderOf path
  if !folder.isEmpty then IO.FS.createDirAll folder
  match content with
  | .text text => IO.FS.writeFile path text
  | .bytes bytes => IO.FS.writeBinFile path ⟨bytes.toArray⟩

end TypedClients.Disk

open TypedClients

/-- Runs the command that the arguments make. -/
def main (arguments : List String) : IO UInt32 := do
  let home := (Text.splitString '/' (← IO.currentDir).toString).filter fun n => !n.isEmpty
  let w ← match Command.ofArguments? arguments with
    | some command => do
      let w ← Disk.fetch (.empty home) command.configPath
      (command.folders w).foldlM Disk.fetch w
    | none => pure (.empty home)
  let (report, after) := w.command Filter.standard arguments
  for (path, content) in after.changedBelow w [] do
    Disk.store ("/" ++ path) content
  IO.print report.output
  IO.eprint report.messages
  pure (UInt32.ofNat report.code)
