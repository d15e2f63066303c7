import TypedClients.Filter.Basic
import TypedClients.Workspace.Basic

/-!
# Formatters

A formatter pretty-prints a text before it is written. A program is given the text as its input and
has to end well, with a text for its output. In its arguments the path of the file may be asked for.
Which programs there are, and what they do, is left open.

`format_none` says that without a formatter the text stays as it is.

## What a program has to do

The program is started with the text for its input. It fails if it cannot be found, if its status is
not zero, and if what it has written is no text; each of these is an error of its own
(`OutputError`). What it has reported is told in the second case, without the blanks at its ends,
and not looked at in the others. The path is put into every argument that holds the mark for it
(`Formatter.fileMark`), as often as it is there.

## What is not here

How long a program runs, and what it does besides. The preset formatter is one such program with
fixed arguments; whether it is installed is not known here.
-/

namespace TypedClients

/-- Why an output could not be made. -/
inductive OutputError where
  | file (path : String) (fault : FileFault)
  | notStarted (command : String) (fault : FileFault)
  | rejected (command path report : String)
  | notText (command : String)
  deriving DecidableEq, Repr

namespace OutputError

/-- The message of an error, with a wording for the faults of files. -/
def message (wording : FileFault → String) : OutputError → String
  | .file path fault => "failed to write " ++ path ++ ": " ++ wording fault
  | .notStarted command fault =>
    "failed to run formatter `" ++ command ++ "`: " ++ wording fault
  | .rejected command path report =>
    "formatter `" ++ command ++ "` rejected " ++ path ++ ": " ++ report
  | .notText command => "formatter `" ++ command ++ "` produced non UTF-8 output"

/-- What an error is caused by. -/
def causes (wording : FileFault → String) : OutputError → List String
  | .file _ fault => [wording fault]
  | .notStarted _ fault => [wording fault]
  | .rejected _ _ _ => []
  | .notText _ => []

end OutputError

/-- What becomes of the text that is to be written to a path. -/
abbrev Formatting := (path text : String) → Except OutputError String

/-- How a text is formatted. -/
inductive Formatter where
  | none
  | prettier
  | command (program : String) (arguments : List String)
  deriving DecidableEq, Repr

namespace Formatter

/-- The place of the file's path in an argument. -/
def fileMark : String := "\x7bfile\x7d"

/-- Formats by a program. -/
def runProgram (programs : Programs) (program : String) (arguments : List String) : Formatting :=
  fun path text =>
  let command := " ".intercalate (program :: arguments)
  match programs program with
  | Option.none => .error (.notStarted command .notFound)
  | some filter =>
    let outcome := filter (arguments.map (Text.replace fileMark path)) (Text.encode text)
    if outcome.status != 0 then
      .error (.rejected command path (Text.trim (Text.ofBytes outcome.report)))
    else match Text.ofBytes? outcome.output with
      | some formatted => .ok formatted
      | Option.none => .error (.notText command)

/-- Formats as a formatter says. -/
def format (programs : Programs) : Formatter → Formatting
  | .none => fun _ text => .ok text
  | .prettier => runProgram programs "npx" ["prettier", "--stdin-filepath", fileMark]
  | .command program arguments => runProgram programs program arguments

/-- Without a formatter the text stays as it is. -/
@[simp] theorem format_none (programs : Programs) (path text : String) :
    format programs .none path text = .ok text := rfl

end Formatter

end TypedClients
