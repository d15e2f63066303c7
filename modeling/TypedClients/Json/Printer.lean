import TypedClients.Json.Basic
import TypedClients.Script.Literal

/-!
# Printing JSON

A tree with every item and member on a line of its own, indented by two spaces for each level. A
string is written as in a script.

Empty arrays and objects are written on one line. Numbers are written as they were read, and strings
with the escapes of the generated script (`Script.quote`). The order of members is kept, and so are
repeated keys.
-/

namespace TypedClients.Json

/-- Puts the parts of a collection on lines of their own between its brackets. -/
def enclose (indent : Nat) (opening closing : String) (parts : List String) : String :=
  if parts.isEmpty then opening ++ closing
  else
    let lead := "\n" ++ Text.spaces (indent + 2)
    opening ++ lead ++ ("," ++ lead).intercalate parts ++ "\n" ++ Text.spaces indent ++ closing

mutual

/-- A value on a line with the given indentation. -/
def printAt (indent : Nat) : Json → String
  | .null => "null"
  | .bool b => if b then "true" else "false"
  | .number n => n
  | .string s => Script.quote s
  | .array items => enclose indent "[" "]" (printItems (indent + 2) items)
  | .object members => enclose indent "\x7b" "\x7d" (printMembers (indent + 2) members)

/-- The items of an array. -/
def printItems (indent : Nat) : List Json → List String
  | [] => []
  | item :: rest => printAt indent item :: printItems indent rest

/-- The members of an object. -/
def printMembers (indent : Nat) : List (String × Json) → List String
  | [] => []
  | (key, value) :: rest =>
    (Script.quote key ++ ": " ++ printAt indent value) :: printMembers indent rest

end

/-- A tree as a text. -/
def print (value : Json) : String :=
  printAt 0 value

end TypedClients.Json
