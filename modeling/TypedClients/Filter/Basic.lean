import TypedClients.Text.Basic
import TypedClients.Text.Utf8

/-!
# Filters

A filter is a program that reads bytes and writes bytes. It ends with a status, zero if all is
well, and may report what went wrong on a channel of its own.

A formatter is any program, so which programs there are is a parameter of what runs them
(`Programs`). The programs that are modelled here and in the modules beside this one are those that
a small script may use. They are enough to run a formatter without a machine around it.

What a program may do besides is not modelled. A filter has no files, no clock and no environment:
how it ends depends on its arguments and its input, and on nothing else. The file names that `cat`
knows are those of the input and of what is empty.
-/

namespace TypedClients

/-- How a filter ended: its status, what it wrote, what it reported. -/
structure Outcome where
  status : Nat
  output : List UInt8
  report : List UInt8
  deriving DecidableEq, Repr

namespace Outcome

/-- A filter that wrote `output` and ended well. -/
def success (output : List UInt8) : Outcome := ⟨0, output, []⟩

/-- A filter that wrote nothing and ended with a report of one line. -/
def failure (status : Nat) (line : String) : Outcome := ⟨status, [], Text.encode (line ++ "\n")⟩

end Outcome

/-- A filter, given its arguments and its input. -/
abbrev Filter := (arguments : List String) → (input : List UInt8) → Outcome

/-- The programs that can be run, by their names. -/
abbrev Programs := (name : String) → Option Filter

namespace Filter

/-- What an operand of `cat` stands for: the input for a dash, and nothing else can be read. -/
def catOperand (input : List UInt8) (sofar : Outcome × Bool) (operand : String) :
    Outcome × Bool :=
  let (result, inputTaken) := sofar
  if operand = "-" then
    ({ result with output := result.output ++ if inputTaken then [] else input }, true)
  else if operand = "/dev/null" then (result, inputTaken)
  else
    let line := "cat: " ++ operand ++ ": No such file or directory\n"
    ({ result with status := 1, report := result.report ++ Text.encode line }, inputTaken)

/-- Writes its operands one behind the other, or its input. -/
def cat : Filter := fun arguments input =>
  let operands := arguments.filter fun a => a != "-u" && a != "--"
  if operands.isEmpty then .success input
  else (operands.foldl (catOperand input) (⟨0, [], []⟩, false)).1

/-- Without operands the input passes through. -/
theorem cat_nil (input : List UInt8) : cat [] input = .success input := rfl

/-- The byte of up to three octal digits. -/
def octalByte (digits : List Char) : UInt8 :=
  UInt8.ofNat (digits.foldl (fun n d => 8 * n + (d.toNat - '0'.toNat)) 0)

/-- Whether a character is an octal digit. -/
def isOctal (c : Char) : Bool := '0' ≤ c && c ≤ '7'

/-- The byte that a letter stands for behind a backslash. -/
def escapedByte? (c : Char) : Option UInt8 :=
  match c with
  | 'a' => some 0x07
  | 'b' => some 0x08
  | 'f' => some 0x0C
  | 'n' => some 0x0A
  | 'r' => some 0x0D
  | 't' => some 0x09
  | 'v' => some 0x0B
  | '\\' => some 0x5C
  | _ => none

end Filter

end TypedClients
