import TypedClients.Name.Identifier

/-!
# Literals, keys and comments of the generated script

How a text is written as a string literal, as a key of an object, as a property that is read, and
inside a doc comment.

A literal is read back as the text that it was written for: every character that would end it or
that cannot stand in it is escaped. Characters outside ASCII are not touched, and neither are the
two separators of lines that a script allows in its literals.

A comment is a different matter. It cannot be escaped, so its end is broken up by a backslash;
whoever reads the comment sees the backslash. Texts inside template texts have no function of their
own here, as they are written without one.
-/

namespace TypedClients.Script

/-- A lowercase hexadecimal digit. -/
def hexDigit (n : Nat) : Char :=
  if n < 10 then Char.ofNat ('0'.toNat + n) else Char.ofNat ('a'.toNat + (n - 10))

/-- A character between the quotes of a literal: the quote, the backslash and the control
characters are escaped, all else stands for itself. -/
def escapeChar (c : Char) : List Char :=
  if c = '"' then ['\\', '"']
  else if c = '\\' then ['\\', '\\']
  else if c = '\n' then ['\\', 'n']
  else if c = '\r' then ['\\', 'r']
  else if c = '\t' then ['\\', 't']
  else if c = '\x08' then ['\\', 'b']
  else if c = '\x0c' then ['\\', 'f']
  else if c.toNat < 0x20 then
    ['\\', 'u', '0', '0', hexDigit (c.toNat / 16), hexDigit (c.toNat % 16)]
  else [c]

/-- A text as a string literal. -/
def quote (s : String) : String :=
  Text.lift (fun cs => '"' :: (cs.flatMap escapeChar ++ ['"'])) s

/-- A key of an object literal, quoted only where it has to be. -/
def propertyKey (key : String) : String :=
  if Name.isIdentifier key then key else quote key

/-- The read of a property of `object`. -/
def propertyAccess (object key : String) : String :=
  if Name.isIdentifier key then object ++ "." ++ key else object ++ "[" ++ quote key ++ "]"

/-- Breaks up every end of a comment. -/
def escapeCommentChars : List Char → List Char
  | '*' :: '/' :: r => '*' :: '\\' :: '/' :: escapeCommentChars r
  | c :: r => c :: escapeCommentChars r
  | [] => []

/-- A text made safe to stand in a doc comment. -/
def escapeComment : String → String :=
  Text.lift escapeCommentChars

end TypedClients.Script
