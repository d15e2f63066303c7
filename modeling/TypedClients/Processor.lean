import TypedClients.Pattern.Reader

/-!
# Processors

A finished text may be changed by processors. A processor looks for the first match of its
pattern, makes a replacement out of what the groups hold there, and puts it in the place of every
match.

The replacement is made once, from the first match, and is then put in the place of all matches. So
a processor whose replacement uses what a group holds gives every match the text of the first one;
it is not a replacement match by match. A replacement is a text and may hold what looks like the
number of a group; it is not looked at again.
-/

namespace TypedClients

/-- A part of a replacement: a text, or what a group of the first match holds. -/
inductive ReplacementPart where
  | text (text : String)
  | group (index : Nat)

/-- A pattern, and what takes the place of its matches. -/
structure Processor where
  pattern : Pattern
  replacement : List ReplacementPart

namespace Processor

/-- The replacement that the first match gives. -/
def replacementFor (processor : Processor) (found : Pattern.Found) : List Char :=
  processor.replacement.flatMap fun
    | .text text => text.toList
    | .group index => found.group index

/-- Applies a processor; without a match the text stays as it is. -/
def apply (processor : Processor) (text : String) : String :=
  match processor.pattern.find? 0 text.toList with
  | none => text
  | some found =>
    Text.lift (processor.pattern.replaceAll fun _ => processor.replacementFor found) text

/-- Applies processors one after the other. -/
def applyAll (processors : List Processor) (text : String) : String :=
  processors.foldl (fun text processor => processor.apply text) text

end Processor

end TypedClients
