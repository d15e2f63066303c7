import TypedClients.Text.Basic
import TypedClients.Text.Digit

/-!
# Version markers

An operation's name may carry a marker such as `_v2`. The version is read from the last marker of
the first line that holds one; the marker that is taken out of the name is the first of all.

The digits of a marker may be those of any script, and are kept as they are written. A marker may
stand anywhere in the name: `get_v1_items` has one as well as `getItems_v1`. What is lost of a name
with several markers follows from these two functions and is proved of them elsewhere.
-/

namespace TypedClients.Name

/-- The digits of the marker that `s` begins with. -/
def markerAt? : List Char → Option (List Char)
  | '_' :: 'v' :: r =>
    match r.takeWhile Text.isDecimal with
    | [] => none
    | digits => some digits
  | _ => none

/-- The digits of the last marker in a line. -/
def lastMarker? : List Char → Option (List Char)
  | [] => none
  | c :: r =>
    match lastMarker? r with
    | some digits => some digits
    | none => markerAt? (c :: r)

/-- The digits of the last marker of the first line that holds one. -/
def version? (s : List Char) : Option (List Char) :=
  (Text.split '\n' s).findSome? lastMarker?

/-- The text without its first marker. -/
def dropMarker : List Char → List Char
  | [] => []
  | c :: r =>
    match markerAt? (c :: r) with
    | some digits => (c :: r).drop (digits.length + 2)
    | none => c :: dropMarker r

/-- A name without its version marker, and the version. -/
def splitVersion (s : String) : String × Option String :=
  (Text.lift dropMarker s, (version? s.toList).map String.ofList)

end TypedClients.Name
