import TypedClients.Json.Basic
import TypedClients.Text.Basic

/-!
# JSON pointers

A pointer names a place in a document: the empty one the whole, else a slash before each step. In
a step `~1` stands for a slash and `~0` for a tilde.

`unescape_escape` says that an escaped key is read back.

## Reading and writing

A pointer is split at its slashes before the escapes are undone, so a slash in a key is never taken
for the end of a step. In an object a step is a key; in an array it is a position, written without
leading zeros. The sign for the position behind the last one is not known, as nothing is there to be
named.

`escapeStepChars` and `unescapeStepChars` are one pass over the characters each. Where escapes are
written or undone by replacing one sign after the other, the order of the replacements matters; a
single pass has no such order.
-/

namespace TypedClients.Json

/-- A key written as a step of a pointer. -/
def escapeStepChars : List Char → List Char
  | [] => []
  | '~' :: r => '~' :: '0' :: escapeStepChars r
  | '/' :: r => '~' :: '1' :: escapeStepChars r
  | c :: r => c :: escapeStepChars r

/-- A key written as a step of a pointer. -/
def escapeStep : String → String :=
  Text.lift escapeStepChars

/-- The key that a step is written for. -/
def unescapeStepChars : List Char → List Char
  | [] => []
  | '~' :: '1' :: r => '/' :: unescapeStepChars r
  | '~' :: '0' :: r => '~' :: unescapeStepChars r
  | c :: r => c :: unescapeStepChars r

/-- An escaped key is read back. -/
theorem unescape_escape (s : List Char) : unescapeStepChars (escapeStepChars s) = s := by
  induction s using escapeStepChars.induct with
  | case1 => rfl
  | case2 r ih => simp [escapeStepChars, unescapeStepChars, ih]
  | case3 r ih => simp [escapeStepChars, unescapeStepChars, ih]
  | case4 c r h₁ _ ih =>
    have hc : c ≠ '~' := fun h => h₁ h
    simp [escapeStepChars, unescapeStepChars, ih, hc]

/-- The position that a step means in an array: digits without a leading zero. -/
def position? (step : List Char) : Option Nat :=
  match step with
  | [] => none
  | '0' :: _ :: _ => none
  | digits => if digits.all Char.isDigit then some (Text.decimalValue digits) else none

/-- Takes one step down. -/
def stepInto? (value : Json) (step : List Char) : Option Json :=
  match value with
  | .object members => Keyed.get? (String.ofList step) members
  | .array items => (position? step).bind fun i => items[i]?
  | _ => none

/-- The steps of a pointer. -/
def pointerSteps? : List Char → Option (List (List Char))
  | [] => some []
  | '/' :: r => some ((Text.split '/' r).map unescapeStepChars)
  | _ :: _ => none

/-- The value that a pointer names. -/
def pointer? (value : Json) (path : List Char) : Option Json := do
  let steps ← pointerSteps? path
  steps.foldlM stepInto? value

end TypedClients.Json
