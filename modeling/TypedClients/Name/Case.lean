import TypedClients.Text.Basic
import TypedClients.Text.Uppercase

/-!
# Camel and Pascal case

A name in the documents may be written with hyphens or underscores between its words. Camel case
drops a separator and raises the character after it; Pascal case raises the first character too.

The two conversions go by characters and know no words: whether a character is raised depends on the
one in front of it alone. A separator is dropped only before an ASCII letter, an ASCII digit or an
underscore, so one at the end stays, and so does one before a letter of another script. Raising
changes ASCII letters only, except for the first character in Pascal case, which is raised by its
full mapping and may become several characters.

The result is no identifier in general. Where a name has to be one, it is made into one afterwards.
-/

namespace TypedClients.Name

/-- A separator of words. -/
def isSeparator (c : Char) : Bool :=
  c == '-' || c == '_'

/-- An ASCII letter, an ASCII digit or the underscore: what a separator is dropped before. -/
def isPlain (c : Char) : Bool :=
  c.isAlphanum || c == '_'

/-- Drops each separator that stands before a plain character and raises that character. The scan
goes on after it, so of two underscores before a letter only the first is dropped. -/
def camelChars : List Char → List Char
  | a :: b :: r =>
    if isSeparator a && isPlain b then b.toUpper :: camelChars r else a :: camelChars (b :: r)
  | [a] => [a]
  | [] => []

/-- Camel case: `arc_width` becomes `arcWidth`, and `arcWidth` stays. -/
def camel : String → String :=
  Text.lift camelChars

/-- Raises the first character, by its full uppercase mapping. -/
def raiseFirst : List Char → List Char
  | [] => []
  | c :: r => Text.upper c ++ r

/-- Pascal case on characters. -/
def pascalChars (s : List Char) : List Char :=
  raiseFirst (camelChars s)

/-- Pascal case: `arc_width` becomes `ArcWidth`. -/
def pascal : String → String :=
  Text.lift pascalChars

end TypedClients.Name
