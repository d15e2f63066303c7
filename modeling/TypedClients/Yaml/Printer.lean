import TypedClients.Json.Basic
import TypedClients.Yaml.Basic

/-!
# Printing YAML

A JSON tree as a block document. The items of a sequence stand at the column of its key. A string is
plain where it can be, quoted where it would read as something else, and a literal block where it
has several lines.

## How a string is written

The style is chosen by what the text holds (`styleOf`): a text of several lines is a literal block
unless it has blanks at line ends or characters that need escapes; a text on one line is plain
unless it would be read as something else, and then it stands in single quotes, or in double quotes
if it needs escapes.

## What is not here

Lines are never folded, however long they are, and a tree is never written in flow style, except for
empty collections.
-/

namespace TypedClients.Yaml

/-- The ways to write a string. -/
inductive Style where
  | plain
  | single
  | double
  | literal
  deriving DecidableEq, Repr

/-- Whether a character may stand in a text without an escape. -/
def isPrintable (c : Char) : Bool :=
  let n := c.toNat
  n == 0x0A || (0x20 ≤ n && n ≤ 0x7E) || (0xA0 ≤ n && n < 0xFFFE && n != 0xFEFF)

/-- Whether a character ends a line. -/
def isLineEnd (c : Char) : Bool :=
  c == '\n' || c == '\r' || c == '\u0085' || c == '\u2028' || c == '\u2029'

/-- Whether a character is a blank or a line end, or there is none. -/
def separates (c : Option Char) : Bool :=
  match c with
  | some c => c == ' ' || c == '\t' || isLineEnd c
  | none => true

/-- Whether a character has a meaning of its own, and so cannot stand in a plain text here. -/
def isIndicator (before : Option Char) (c : Char) (after : Option Char) (first : Bool) : Bool :=
  if first then
    "#,[]\x7b\x7d&*!|>'\"%@`".contains c
      || ((c == '-' || c == '?' || c == ':') && separates after)
  else (c == ':' && separates after) || (c == '#' && separates before)

/-- Whether a character with a meaning of its own stands in a text. -/
def hasIndicator : (first : Bool) → (before : Option Char) → List Char → Bool
  | _, _, [] => false
  | first, before, c :: r =>
    isIndicator before c r.head? first || hasIndicator false (some c) r

/-- Whether two characters of the given kinds stand one behind the other. -/
def hasPair (a b : Char → Bool) (s : List Char) : Bool :=
  (s.zip (s.drop 1)).any fun (c, d) => a c && b d

/-- Whether a string would read as something else if it were plain. -/
def isAmbiguous (text : String) : Bool :=
  plainKind text != .string || hasLeadingZero text.toList
    || ["y", "Y", "yes", "Yes", "YES", "n", "N", "no", "No", "NO",
        "on", "On", "ON", "off", "Off", "OFF"].contains text

/-- The way in which a string is written. -/
def styleOf (text : String) : Style :=
  let s := text.toList
  let isSpace : Char → Bool := fun c => c == ' '
  let special := s.any fun c => !isPrintable c
  let marker := s.take 3 == "---".toList || s.take 3 == "...".toList
  let spaceBeforeEnd := hasPair isSpace isLineEnd s
  let spaceAfterEnd := hasPair isLineEnd isSpace s
  let atEdge := (s.head?.toList ++ s.getLast?.toList).any fun c => isSpace c || isLineEnd c
  if s.contains '\n' then
    if special || spaceBeforeEnd || (s.getLast?.map isSpace).getD false then .double else .literal
  else if special || spaceBeforeEnd || spaceAfterEnd then .double
  else if isAmbiguous text || atEdge || marker || s.any isLineEnd || hasIndicator true none s then
    .single
  else .plain

/-- A number in upper-case hexadecimal digits, of at least a certain width. -/
def hex (width n : Nat) : List Char :=
  let digits := (Nat.toDigits 16 n).map Char.toUpper
  List.replicate (width - digits.length) '0' ++ digits

/-- A character between double quotes. -/
def escape (c : Char) : List Char :=
  let n := c.toNat
  match c with
  | '"' => ['\\', '"']
  | '\\' => ['\\', '\\']
  | '\n' => ['\\', 'n']
  | '\r' => ['\\', 'r']
  | '\t' => ['\\', 't']
  | '\x00' => ['\\', '0']
  | '\x07' => ['\\', 'a']
  | '\x08' => ['\\', 'b']
  | '\x0b' => ['\\', 'v']
  | '\x0c' => ['\\', 'f']
  | '\x1b' => ['\\', 'e']
  | '\u0085' => ['\\', 'N']
  | '\u2028' => ['\\', 'L']
  | '\u2029' => ['\\', 'P']
  | c =>
    if isPrintable c then [c]
    else if n ≤ 0xFF then '\\' :: 'x' :: hex 2 n
    else if n ≤ 0xFFFF then '\\' :: 'u' :: hex 4 n
    else '\\' :: 'U' :: hex 8 n

/-- The sign behind the bar of a literal block that says what to do with the line ends after it. -/
def chomping (s : List Char) : String :=
  match s.reverse with
  | '\n' :: '\n' :: _ => "+"
  | ['\n'] => "+"
  | '\n' :: _ => ""
  | _ => "-"

/-- A string as a literal block whose lines are indented. -/
def literal (indent : Nat) (text : String) : String :=
  let s := text.toList
  let hint := match s with
    | c :: _ => if c == ' ' || isLineEnd c then "2" else ""
    | [] => ""
  let lines := Text.splitString '\n' text
  let lines := if s.getLast? == some '\n' then lines.dropLast else lines
  let pad := Text.spaces indent
  "|" ++ hint ++ chomping s ++ String.join
    (lines.map fun line => "\n" ++ if line.isEmpty then "" else pad ++ line)

/-- A string. -/
def printString (indent : Nat) (text : String) : String :=
  match styleOf text with
  | .plain => text
  | .single => "'" ++ Text.replace "'" "''" text ++ "'"
  | .double => "\"" ++ Text.lift (fun s => s.flatMap escape) text ++ "\""
  | .literal => literal indent text

mutual

/-- The lines of a value behind a key or a dash, and whether they begin on the same line. `indent`
is the column of the key or dash, and a mapping behind a dash begins on its line. -/
def printBehind (indent : Nat) (dash : Bool) : Json → String
  | .null => " null\n"
  | .bool b => if b then " true\n" else " false\n"
  | .number n => " " ++ n ++ "\n"
  | .string s => " " ++ printString (indent + 2) s ++ "\n"
  | .array [] => " []\n"
  | .object [] => " \x7b\x7d\n"
  | .array (item :: items) =>
    if dash then " -" ++ printBehind (indent + 2) true item ++ printItems (indent + 2) items
    else "\n" ++ Text.spaces indent ++ "-" ++ printBehind indent true item
      ++ printItems indent items
  | .object ((key, value) :: members) =>
    (if dash then " " else "\n" ++ Text.spaces (indent + 2)) ++ printString 0 key ++ ":"
      ++ printBehind (indent + 2) false value ++ printMembers (indent + 2) members

/-- The items of a sequence, each on lines of its own. -/
def printItems (indent : Nat) : List Json → String
  | [] => ""
  | item :: items =>
    Text.spaces indent ++ "-" ++ printBehind indent true item ++ printItems indent items

/-- The members of a mapping, each on lines of its own. -/
def printMembers (indent : Nat) : List (String × Json) → String
  | [] => ""
  | (key, value) :: members =>
    Text.spaces indent ++ printString 0 key ++ ":" ++ printBehind indent false value
      ++ printMembers indent members

end

/-- A tree as a document. -/
def print : Json → String
  | .object [] => "\x7b\x7d\n"
  | .object members => printMembers 0 members
  | .array [] => "[]\n"
  | .array items => printItems 0 items
  | value => Text.lift (List.drop 1) (printBehind 0 true value)

end TypedClients.Yaml
