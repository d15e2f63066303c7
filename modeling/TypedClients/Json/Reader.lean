import TypedClients.Json.Number

/-!
# Reading JSON text

A reader takes the characters that are left and gives a value with the characters after it, or
the first fault in text order. A value that is kept is read strictly: at most 127 levels of
nesting from the start of the text, numbers in range, paired surrogates. A value that is skipped
only has to be well formed.

The loops count down a bound that the length of the text sets; each round takes a character, so
the bound is never met.

## Which fault is given

A text has one fault, the first in its order, and there are three kinds of them: a text that ends
too early, one that is broken, and one that is whole so far but not of the shape that is asked for.
To tell the first two apart a reader looks at what is left where it stops, also inside escapes and
numbers (`brokenEscape`, `brokenNumber`).

The readers of documents fold over items and members (`foldItems`, `foldMembers`) and may stop at
the first one that does not fit. So a fault of shape is given where it comes before a fault of text
that stands further on.

## What is not here

Byte order marks, comments and commas behind the last item are faults. Characters are those of a
text: bytes that are none have been refused when the file was read. Where in the text a fault is, by
line and column, is not kept.
-/

namespace TypedClients.Json

/-- The levels of nesting that may be open, plus one. -/
def maxNesting : Nat := 128

/-- The four characters that may stand between tokens. -/
def isSpace (c : Char) : Bool :=
  c == ' ' || c == '\t' || c == '\n' || c == '\r'

/-- Passes over the space before a token. -/
def skipSpace (s : List Char) : List Char :=
  s.dropWhile isSpace

/-- Reads the rest of a word such as `null`. -/
def readWord : (word s : List Char) → Except Fault (List Char)
  | [], s => .ok s
  | _ :: _, [] => .error .truncated
  | a :: word, b :: s => if a = b then readWord word s else .error .malformed

/-- The value of four hexadecimal digits. -/
def hexUnit? (a b c d : Char) : Option Nat := do
  let a ← Text.hexValue? a
  let b ← Text.hexValue? b
  let c ← Text.hexValue? c
  let d ← Text.hexValue? d
  some (((a * 16 + b) * 16 + c) * 16 + d)

/-- The fault of a text that ends inside the four digits of an escape: what is left counts in
bytes of UTF-8. -/
def brokenEscape (rest : List Char) : Fault :=
  if (String.ofList rest).utf8ByteSize < 4 then .truncated else .malformed

/-- The first unit of a surrogate pair. -/
def isHighSurrogate (n : Nat) : Bool := 0xD800 ≤ n && n ≤ 0xDBFF

/-- The second unit of a surrogate pair. -/
def isLowSurrogate (n : Nat) : Bool := 0xDC00 ≤ n && n ≤ 0xDFFF

/-- The character that a single letter stands for after a backslash. -/
def escaped? (c : Char) : Option Char :=
  match c with
  | '"' => some '"'
  | '\\' => some '\\'
  | '/' => some '/'
  | 'b' => some '\x08'
  | 'f' => some '\x0c'
  | 'n' => some '\n'
  | 'r' => some '\r'
  | 't' => some '\t'
  | _ => none

/-- Reads a string from behind its opening quote. `high` is a first surrogate that waits for the
second, `done` what has been read, last character first. -/
def readString (strict : Bool) : (high : Option Nat) → (done : List Char) → List Char →
    Except Fault (String × List Char)
  | _, _, [] => .error .truncated
  | none, done, '"' :: r => .ok (String.ofList done.reverse, r)
  | none, done, '\\' :: 'u' :: a :: b :: c :: d :: r =>
    match hexUnit? a b c d with
    | none => .error .malformed
    | some n =>
      if strict && isHighSurrogate n then readString strict (some n) done r
      else if strict && isLowSurrogate n then .error .malformed
      else readString strict none (Char.ofNat n :: done) r
  | none, _, '\\' :: 'u' :: r => .error (brokenEscape r)
  | none, _, ['\\'] => .error .truncated
  | none, done, '\\' :: c :: r =>
    match escaped? c with
    | some e => readString strict none (e :: done) r
    | none => .error .malformed
  | none, done, c :: r =>
    if c.toNat < 0x20 then .error .malformed else readString strict none (c :: done) r
  | some high, done, '\\' :: 'u' :: a :: b :: c :: d :: r =>
    match hexUnit? a b c d with
    | none => .error .malformed
    | some low =>
      if isLowSurrogate low then
        let code := (high - 0xD800) * 0x400 + (low - 0xDC00) + 0x10000
        readString strict none (Char.ofNat code :: done) r
      else .error .malformed
  | some _, _, '\\' :: 'u' :: r => .error (brokenEscape r)
  | some _, _, ['\\'] => .error .truncated
  | some _, _, _ :: _ => .error .malformed

/-- Passes over a colon between a key and its value. -/
def readColon (s : List Char) : Except Fault (List Char) :=
  match skipSpace s with
  | [] => .error .truncated
  | ':' :: r => .ok r
  | _ :: _ => .error .malformed

/-- Goes to the next item of an array: the characters from its value on, or `none` with what
follows the closing bracket. -/
def nextItem (first : Bool) (s : List Char) : Except Fault (Bool × List Char) :=
  match skipSpace s with
  | [] => .error .truncated
  | ']' :: r => .ok (false, r)
  | c :: r =>
    if first then .ok (true, c :: r)
    else if c = ',' then
      match skipSpace r with
      | [] => .error .truncated
      | ']' :: _ => .error .malformed
      | r => .ok (true, r)
    else .error .malformed

/-- Goes to the next key of an object: the characters behind its opening quote, or `none` with
what follows the closing brace. -/
def nextKey (first : Bool) (s : List Char) : Except Fault (Bool × List Char) :=
  match skipSpace s with
  | [] => .error .truncated
  | '\x7d' :: r => .ok (false, r)
  | c :: r =>
    if first then (if c = '"' then .ok (true, r) else .error .malformed)
    else if c = ',' then
      match skipSpace r with
      | [] => .error .truncated
      | '"' :: r => .ok (true, r)
      | _ :: _ => .error .malformed
    else .error .malformed

/-- Folds over the items of an array, from behind its opening bracket. -/
def foldItems {σ : Type} (step : σ → List Char → Except Fault (σ × List Char)) :
    (bound : Nat) → (first : Bool) → σ → List Char → Except Fault (σ × List Char)
  | 0, _, _, _ => .error .truncated
  | bound + 1, first, state, s => do
    let (more, s) ← nextItem first s
    if more then
      let (state, s) ← step state s
      foldItems step bound false state s
    else .ok (state, s)

/-- Folds over the members of an object, from behind its opening brace. The step is given the key
and the characters behind it. -/
def foldMembers {σ : Type} (strict : Bool)
    (step : σ → String → List Char → Except Fault (σ × List Char)) :
    (bound : Nat) → (first : Bool) → σ → List Char → Except Fault (σ × List Char)
  | 0, _, _, _ => .error .truncated
  | bound + 1, first, state, s => do
    let (more, s) ← nextKey first s
    if more then
      let (key, s) ← readString strict none [] s
      let (state, s) ← step state key s
      foldMembers strict step bound false state s
    else .ok (state, s)

/-- Reads a value. `depth` is the number of levels that may still be opened, plus one. -/
def readValue (strict : Bool) : (bound : Nat) → (depth : Nat) → List Char →
    Except Fault (Json × List Char)
  | 0, _, _ => .error .truncated
  | bound + 1, depth, s =>
    match skipSpace s with
    | [] => .error .truncated
    | 'n' :: r => (readWord "ull".toList r).map fun r => (.null, r)
    | 't' :: r => (readWord "rue".toList r).map fun r => (.bool true, r)
    | 'f' :: r => (readWord "alse".toList r).map fun r => (.bool false, r)
    | '"' :: r => (readString strict none [] r).map fun (text, r) => (.string text, r)
    | '[' :: r =>
      if strict && depth ≤ 1 then .error .malformed
      else do
        let (items, r) ← foldItems
          (fun done s => do
            let (item, s) ← readValue strict bound (depth - 1) s
            .ok (item :: done, s))
          (bound + 1) true [] r
        .ok (.array items.reverse, r)
    | '\x7b' :: r =>
      if strict && depth ≤ 1 then .error .malformed
      else do
        let (members, r) ← foldMembers strict
          (fun done key s => do
            let s ← readColon s
            let (value, s) ← readValue strict bound (depth - 1) s
            .ok ((key, value) :: done, s))
          (bound + 1) true [] r
        .ok (.object members.reverse, r)
    | c :: r => if c = '-' || c.isDigit then readNumber strict (c :: r) else .error .malformed

/-- Only space may follow the value of a text. -/
def readEnd {α : Type} (reading : Except Fault (α × List Char)) : Except Fault α := do
  let (a, s) ← reading
  match skipSpace s with
  | [] => .ok a
  | _ :: _ => .error .malformed

/-- Reads a text that is one value. -/
def read (text : String) : Except Fault Json :=
  readEnd (readValue true (text.length + 1) maxNesting text.toList)

/-- The fault of a value that is not of the kind that is asked for. A scalar is read to its end
first, and a fault in it wins. -/
def misfit (s : List Char) : Fault :=
  match s with
  | [] => .truncated
  | '[' :: _ => .mismatch
  | '\x7b' :: _ => .mismatch
  | _ =>
    match readValue true 1 maxNesting s with
    | .ok _ => .mismatch
    | .error fault => fault

end TypedClients.Json
