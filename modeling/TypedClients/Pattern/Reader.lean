import TypedClients.Pattern.Basic

/-!
# Reading patterns

The notation of patterns: characters, escapes, sets in brackets, groups in parentheses, `|` between
alternatives, and `*`, `+` and `?` behind what may be repeated or left out. Groups are numbered by
their opening parentheses.

Each step of the reader takes a character, so the bound that the length of the notation sets is
never met.

A bar separates alternatives as far as the group goes; a sign of repetition belongs to the one thing
in front of it. Inside brackets only a few characters have a meaning, and a range needs a character
on both sides. Parentheses that begin with a question mark and a colon only hold together what is in
them, and make no group.

A notation that does not fit is refused. One that would mean more elsewhere, such as counted
repetitions in braces or named classes in brackets, is read as the characters that it is written
with.
-/

namespace TypedClients.Pattern

/-- A pattern that is one certain character. -/
def char (c : Char) : Pattern := .oneOf false [.range c c]

/-- The set that a letter stands for behind a backslash. -/
def escapedSet (c : Char) : CharSet :=
  match c with
  | 'w' => .word
  | 'd' => .digit
  | 's' => .blank
  | 'W' => .negated .word
  | 'D' => .negated .digit
  | 'S' => .negated .blank
  | 'n' => .range '\n' '\n'
  | 't' => .range '\t' '\t'
  | 'r' => .range '\r' '\r'
  | c => .range c c

/-- Reads the sets of a bracket up to its end. A bracket that stands first is a character of the
set. -/
def readSets : (bound : Nat) → (first : Bool) → List Char → Option (List CharSet × List Char)
  | 0, _, _ => none
  | bound + 1, first, s =>
    match s with
    | [] => none
    | ']' :: r => if first then item bound (.range ']' ']') r else some ([], r)
    | '\\' :: c :: r =>
      match escapedSet c, r with
      | .range low _, '-' :: '\\' :: high :: r => item bound (.range low high) r
      | .range low _, '-' :: high :: r =>
        if high = ']' then item bound (.range low low) ('-' :: ']' :: r)
        else item bound (.range low high) r
      | set, r => item bound set r
    | low :: '-' :: high :: r =>
      if high = ']' then item bound (.range low low) ('-' :: ']' :: r)
      else item bound (.range low high) r
    | c :: r => item bound (.range c c) r
where
  /-- Puts a set before those that follow. -/
  item (bound : Nat) (set : CharSet) (r : List Char) : Option (List CharSet × List Char) :=
    (readSets bound false r).map fun (sets, r) => (set :: sets, r)

/-- Reads the signs of repetition behind a pattern. -/
def readRepeats (pattern : Pattern) : List Char → Pattern × List Char
  | '*' :: r => readRepeats (.many pattern) r
  | '+' :: r => readRepeats (.seq pattern (.many pattern)) r
  | '?' :: r => readRepeats (.alt pattern .empty) r
  | s => (pattern, s)

mutual

/-- Reads alternatives. `next` is the number of the next group. -/
def readAlternatives : (bound : Nat) → (next : Nat) → List Char →
    Option (Pattern × Nat × List Char)
  | 0, _, _ => none
  | bound + 1, next, s => do
    let (first, next, s) ← readSequence bound next s
    match s with
    | '|' :: r => do
      let (second, next, r) ← readAlternatives bound next r
      some (.alt first second, next, r)
    | s => some (first, next, s)

/-- Reads what stands one behind the other, up to a bar, a closing parenthesis or the end. -/
def readSequence : (bound : Nat) → (next : Nat) → List Char →
    Option (Pattern × Nat × List Char)
  | 0, _, _ => none
  | bound + 1, next, s =>
    match s with
    | [] => some (.empty, next, [])
    | '|' :: r => some (.empty, next, '|' :: r)
    | ')' :: r => some (.empty, next, ')' :: r)
    | s => do
      let (atom, next, s) ← readAtom bound next s
      let (first, s) := readRepeats atom s
      let (second, next, s) ← readSequence bound next s
      some (.seq first second, next, s)

/-- Reads one thing that may be repeated. -/
def readAtom : (bound : Nat) → (next : Nat) → List Char → Option (Pattern × Nat × List Char)
  | 0, _, _ => none
  | bound + 1, next, s =>
    match s with
    | '(' :: '?' :: ':' :: r => do
      let (inner, next, r) ← readAlternatives bound next r
      match r with
      | ')' :: r => some (inner, next, r)
      | _ => none
    | '(' :: r => do
      let (inner, later, r) ← readAlternatives bound (next + 1) r
      match r with
      | ')' :: r => some (.group next inner, later, r)
      | _ => none
    | '[' :: '^' :: r => do
      let (sets, r) ← readSets bound true r
      some (.oneOf true sets, next, r)
    | '[' :: r => do
      let (sets, r) ← readSets bound true r
      some (.oneOf false sets, next, r)
    | '.' :: r => some (.any, next, r)
    | '^' :: r => some (.start, next, r)
    | '$' :: r => some (.finish, next, r)
    | '\\' :: c :: r => some (.oneOf false [escapedSet c], next, r)
    | c :: r => if c = '*' || c = '+' || c = '?' then none else some (char c, next, r)
    | [] => none

end

/-- Reads a pattern from its notation. -/
def parse? (source : String) : Option Pattern :=
  match readAlternatives (3 * source.length + 3) 1 source.toList with
  | some (pattern, _, []) => some pattern
  | _ => none

end TypedClients.Pattern
