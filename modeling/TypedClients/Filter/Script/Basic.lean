/-!
# Shell scripts

What a script is: commands made of words, put together by pipes, by the status of the one before,
and by the compound forms.

The tree has just the forms that are run. What a word comes to depends on the values of parameters
and is found out when it is run, so a word is a list of pieces, each of which knows whether it was
quoted. Without quotes the value of a parameter is cut at its blanks, and in quotes it is not.

Loops, functions, substitutions of commands, arithmetic, and files whose names are patterns are not
here.
-/

namespace TypedClients

/-- A piece of a word. A quoted piece is taken as it is. -/
inductive WordPiece where
  | char (quoted : Bool) (c : Char)
  | parameter (quoted : Bool) (name : String)
  /-- Quotes with nothing between them. -/
  | empty
  deriving DecidableEq, Repr

/-- A word of a script. -/
abbrev ScriptWord := List WordPiece

/-- Where a command reads from or writes to, if not where the script does. -/
inductive Redirect where
  | input (source : ScriptWord)
  | output (channel : Nat) (target : ScriptWord)
  /-- A channel is to lead where another one leads. -/
  | copy (channel : Nat) (target : ScriptWord)
  deriving DecidableEq, Repr

/-- A script. -/
inductive Script where
  | skip
  | call (assignments : List (String × ScriptWord)) (words : List ScriptWord)
      (redirects : List Redirect)
  | seq (first second : Script)
  /-- The second part runs only if the first ends well. -/
  | both (first second : Script)
  /-- The second part runs only if the first does not end well. -/
  | either (first second : Script)
  | negated (body : Script)
  | pipe (first second : Script)
  /-- A part in braces, or isolated in parentheses. -/
  | block (isolated : Bool) (body : Script) (redirects : List Redirect)
  | choice (condition yes no : Script)
  /-- The body runs if one of the patterns fits the subject, or else the rest is tried. -/
  | matching (subject : ScriptWord) (patterns : List ScriptWord) (body rest : Script)

/-- The text of a word without quotes and parameters. -/
def ScriptWord.plain? (word : ScriptWord) : Option String :=
  (word.mapM fun
    | WordPiece.char false c => some c
    | _ => none).map String.ofList

end TypedClients
