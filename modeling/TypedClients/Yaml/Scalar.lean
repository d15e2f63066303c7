import TypedClients.Yaml.Basic

/-!
# Scalars

A scalar is plain, or stands between single or double quotes. One that goes on over several lines
is folded: a line end counts as a space, and each further one as itself.

## What a scalar may hold

A plain scalar ends at a colon that a blank follows, at a comment, and in a flow collection also at
the signs of the collection. Its first character must not be a sign with a meaning. A quoted scalar
goes on to its closing quote over as many lines as there are, and between double quotes there are
escapes. Whether a scalar stands on one line is told beside it (`readPlain`, `readQuoted`), as only
such a one can be a key.

Blanks at the ends of lines are dropped where a scalar is folded, and a line that is empty stands
for a line end.
-/

namespace TypedClients.Yaml

/-- A point in a text: what is left of it, and the column there. -/
structure Cursor where
  rest : List Char
  column : Nat

namespace Cursor

/-- The point after `count` characters of the same line. -/
def advance (cursor : Cursor) (count : Nat) : Cursor :=
  ⟨cursor.rest.drop count, cursor.column + count⟩

/-- Whether there is no character but a blank or a line end at the beginning of `s`. -/
def isBlankOrEnd (s : List Char) : Bool :=
  match s with
  | [] => true
  | c :: _ => c == ' ' || c == '\t' || c == '\n'

/-- Whether a line begins here that ends the document. -/
def atMarker (cursor : Cursor) : Bool :=
  cursor.column == 0
    && (cursor.rest.take 3 == "---".toList || cursor.rest.take 3 == "...".toList)
    && isBlankOrEnd (cursor.rest.drop 3)

end Cursor

/-- Passes over blanks and line ends. Gives how many lines have ended and the point reached. -/
def skipLines (cursor : Cursor) : Nat × Cursor :=
  go cursor.rest cursor.column 0
where
  /-- `skipLines` on the characters that are left. -/
  go : List Char → (column ended : Nat) → Nat × Cursor
    | ' ' :: r, column, ended => go r (column + 1) ended
    | '\t' :: r, column, ended => go r (column + 1) ended
    | '\n' :: r, _, ended => go r 0 (ended + 1)
    | s, column, ended => (ended, ⟨s, column⟩)

/-- What ended lines count as. -/
def folded (ended : Nat) : List Char :=
  if ended = 1 then [' '] else List.replicate (ended - 1) '\n'

/-! ### Quoted scalars -/

/-- The character that a letter stands for behind a backslash. -/
def escaped? (c : Char) : Option Char :=
  match c with
  | '0' => some '\x00'
  | 'a' => some '\x07'
  | 'b' => some '\x08'
  | 't' => some '\t'
  | '\t' => some '\t'
  | 'n' => some '\n'
  | 'v' => some '\x0b'
  | 'f' => some '\x0c'
  | 'r' => some '\r'
  | 'e' => some '\x1b'
  | ' ' => some ' '
  | '"' => some '"'
  | '/' => some '/'
  | '\\' => some '\\'
  | 'N' => some '\u0085'
  | '_' => some '\u00a0'
  | 'L' => some '\u2028'
  | 'P' => some '\u2029'
  | _ => none

/-- How many hexadecimal digits follow a letter behind a backslash. -/
def escapeDigits? (c : Char) : Option Nat :=
  match c with
  | 'x' => some 2
  | 'u' => some 4
  | 'U' => some 8
  | _ => none

/-- The character of a number in hexadecimal digits. -/
def hexChar? (digits : List Char) : Option Char := do
  let values ← digits.mapM Text.hexValue?
  let n := values.foldl (fun n d => 16 * n + d) 0
  if n.isValidChar then some (Char.ofNat n) else none

/-- Reads a scalar from behind its opening quote, and whether it is on one line. `done` is what has
been read, last character first. Each round takes a character, so the bound that the length sets
is never met. -/
def readQuoted (double : Bool) : (bound : Nat) → (oneLine : Bool) → (done : List Char) →
    Cursor → Option (String × Bool × Cursor)
  | 0, _, _, _ => none
  | bound + 1, oneLine, done, cursor =>
    if cursor.atMarker then none
    else match cursor.rest with
      | [] => none
      | '\'' :: '\'' :: _ =>
        if double then readQuoted double bound oneLine ('\'' :: done) (cursor.advance 1)
        else readQuoted double bound oneLine ('\'' :: done) (cursor.advance 2)
      | '\\' :: c :: r =>
        if !double then readQuoted double bound oneLine ('\\' :: done) (cursor.advance 1)
        else if c = '\n' then
          let (ended, cursor) := skipLines ⟨r, 0⟩
          readQuoted double bound false (List.replicate ended '\n' ++ done) cursor
        else match escaped? c with
          | some e => readQuoted double bound oneLine (e :: done) (cursor.advance 2)
          | none => do
            let count ← escapeDigits? c
            let digits := r.take count
            if digits.length < count then none
            else
              let e ← hexChar? digits
              readQuoted double bound oneLine (e :: done) (cursor.advance (2 + count))
      | c :: _ =>
        if c = (if double then '"' else '\'') then
          some (String.ofList done.reverse, oneLine, cursor.advance 1)
        else if c = ' ' || c = '\t' || c = '\n' then
          let (ended, after) := skipLines cursor
          if ended = 0 then
            let blanks := cursor.rest.takeWhile fun d => d == ' ' || d == '\t'
            readQuoted double bound oneLine (blanks.reverse ++ done) after
          else readQuoted double bound false (folded ended ++ done) after
        else readQuoted double bound oneLine (c :: done) (cursor.advance 1)

/-! ### Plain scalars -/

/-- Whether a plain scalar may begin here. -/
def beginsPlain (flow : Bool) (s : List Char) : Bool :=
  match s with
  | [] => false
  | c :: r =>
    if c = '-' then !Cursor.isBlankOrEnd r
    else if c = '?' || c = ':' then !flow && !Cursor.isBlankOrEnd r
    else !"\n\t ,[]\x7b\x7d#&*!|>'\"%@`".contains c

/-- The part of a plain scalar up to the next blank. -/
def plainChunk (flow : Bool) : List Char → List Char
  | [] => []
  | c :: r =>
    if c = ' ' || c = '\t' || c = '\n' then []
    else if c = ':' && Cursor.isBlankOrEnd r then []
    else if flow && ",[]\x7b\x7d".contains c then []
    else c :: plainChunk flow r

/-- Whether a colon stands where a plain scalar in a flow collection must not have one. -/
def breaksFlow (flow : Bool) (s : List Char) : Bool :=
  match s with
  | ':' :: c :: _ => flow && ",?[]\x7b\x7d".contains c
  | _ => false

/-- Whether a plain scalar goes on at a point on another line. -/
def continuesPlain (flow : Bool) (margin : Nat) (cursor : Cursor) : Bool :=
  (flow || margin ≤ cursor.column) && !cursor.atMarker
    && match cursor.rest with
      | [] => false
      | c :: _ => c != '#'

/-- Reads a plain scalar, and whether it is on one line. A line of it that is not the first begins
at the margin or after it. -/
def readPlain (flow : Bool) (margin : Nat) : (bound : Nat) → (oneLine : Bool) →
    (done : List Char) → Cursor → Option (String × Bool × Cursor)
  | 0, _, _, _ => none
  | bound + 1, oneLine, done, cursor =>
    let chunk := plainChunk flow cursor.rest
    if chunk.isEmpty then some (String.ofList done, oneLine, cursor)
    else if (chunk.zip (cursor.rest.drop 1)).any fun (a, b) => breaksFlow flow [a, b] then none
    else
      let reached := cursor.advance chunk.length
      let (ended, after) := skipLines reached
      let stop := some (String.ofList (done ++ chunk), oneLine, reached)
      if ended = 0 then
        let blanks := reached.rest.takeWhile fun d => d == ' ' || d == '\t'
        let stops := (plainChunk flow after.rest).isEmpty || after.rest.head? == some '#'
        if blanks.isEmpty || stops then stop
        else readPlain flow margin bound oneLine (done ++ chunk ++ blanks) after
      else if continuesPlain flow margin after && !(plainChunk flow after.rest).isEmpty then
        readPlain flow margin bound false (done ++ chunk ++ folded ended) after
      else stop

end TypedClients.Yaml
