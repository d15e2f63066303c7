import TypedClients.Yaml.Scalar

/-!
# Reading YAML

Block collections are told apart by their columns, flow collections by brackets. A key is a scalar
on one line with a colon behind it; where a value stands on the line of its key it cannot be a
block collection. Comments, and lines with nothing else on them, do not count.

Anchors, aliases, tags, block scalars and documents after the first are not read.

## How a document is read

A block value is read at a margin: what stands further left does not belong to it (`readBlock`). The
items of a sequence may stand at the column of the key that holds it, which is why the column is
handed down. A flow collection goes on over lines and does not care about columns. Every round of a
reader takes a character or goes from one form to a smaller one, so a bound that is four times the
length is never met.

A text that uses what is not read is refused as a whole. So is one that holds a character which must
not stand in a document.
-/

namespace TypedClients.Yaml

/-- Passes over blanks, comments and line ends. Tells whether a line has ended. A tab is passed over
where a key cannot begin. -/
def skipSpace (tabs : Bool) (cursor : Cursor) : Bool × Cursor :=
  go tabs false cursor.rest cursor.column
where
  /-- `skipSpace` on the characters that are left. -/
  go (tabs comment : Bool) : List Char → (column : Nat) → Bool × Cursor
    | [], column => (false, ⟨[], column⟩)
    | c :: r, column =>
      if c = '\n' then (true, (go false false r 0).2)
      else if comment || c = '#' then go tabs true r (column + 1)
      else if c = ' ' || (c = '\t' && tabs) then go tabs false r (column + 1)
      else (false, ⟨c :: r, column⟩)

/-- Passes over blanks, comments and line ends between the parts of a flow collection. -/
def skipFlow (cursor : Cursor) : Cursor :=
  go false cursor.rest cursor.column
where
  /-- `skipFlow` on the characters that are left. -/
  go (comment : Bool) : List Char → (column : Nat) → Cursor
    | [], column => ⟨[], column⟩
    | c :: r, column =>
      if c = '\n' then go false r 0
      else if comment || c = '#' then go true r (column + 1)
      else if c = ' ' || c = '\t' then go false r (column + 1)
      else ⟨c :: r, column⟩

/-- Whether an item of a block sequence begins here. -/
def atDash (s : List Char) : Bool :=
  match s with
  | '-' :: r => Cursor.isBlankOrEnd r
  | _ => false

/-- Reads a scalar, and whether it is on one line. -/
def readScalar (flow : Bool) (margin : Nat) (cursor : Cursor) :
    Option (Yaml × Bool × Cursor) :=
  let bound := cursor.rest.length + 1
  match cursor.rest with
  | '"' :: _ =>
    (readQuoted true bound true [] (cursor.advance 1)).map fun (text, rest) =>
      (.scalar true text, rest)
  | '\'' :: _ =>
    (readQuoted false bound true [] (cursor.advance 1)).map fun (text, rest) =>
      (.scalar true text, rest)
  | s =>
    if beginsPlain flow s then
      (readPlain flow margin bound true [] cursor).map fun (text, rest) =>
        (.scalar false text, rest)
    else none

/-- The point of the colon behind a key. -/
def keyColon? (cursor : Cursor) : Option Cursor :=
  let blanks := cursor.rest.takeWhile fun c => c == ' ' || c == '\t'
  let reached := cursor.advance blanks.length
  match reached.rest with
  | ':' :: r => if Cursor.isBlankOrEnd r then some (reached.advance 1) else none
  | _ => none

/-! ### Flow collections -/

mutual

/-- Reads a value in a flow collection. -/
def readFlow : (bound : Nat) → Cursor → Option (Yaml × Cursor)
  | 0, _ => none
  | bound + 1, cursor =>
    match cursor.rest with
    | '[' :: _ =>
      (readFlowItems bound [] (cursor.advance 1)).map fun (items, rest) => (.sequence items, rest)
    | '\x7b' :: _ =>
      (readFlowEntries bound [] (cursor.advance 1)).map fun (entries, rest) =>
        (.mapping entries, rest)
    | _ => (readScalar true 0 cursor).map fun (value, _, rest) => (value, rest)

/-- Reads a value that may be missing before a comma or a closing bracket. -/
def readFlowValue : (bound : Nat) → Cursor → Option (Yaml × Cursor)
  | 0, _ => none
  | bound + 1, cursor =>
    match cursor.rest with
    | ',' :: _ => some (empty, cursor)
    | ']' :: _ => some (empty, cursor)
    | '\x7d' :: _ => some (empty, cursor)
    | _ => readFlow bound cursor

/-- Reads the items of a sequence up to its closing bracket, last one first. -/
def readFlowItems : (bound : Nat) → (done : List Yaml) → Cursor → Option (List Yaml × Cursor)
  | 0, _, _ => none
  | bound + 1, done, cursor => do
    let cursor := skipFlow cursor
    match cursor.rest with
    | ']' :: _ => some (done.reverse, cursor.advance 1)
    | _ =>
      let (value, cursor) ← readFlow bound cursor
      let cursor := skipFlow cursor
      let (item, cursor) ← match cursor.rest, value with
        | ':' :: _, .scalar _ key => do
          let (held, cursor) ← readFlowValue bound (skipFlow (cursor.advance 1))
          some (.mapping [(key, held)], skipFlow cursor)
        | _, value => some (value, cursor)
      match cursor.rest with
      | ',' :: _ => readFlowItems bound (item :: done) (cursor.advance 1)
      | ']' :: _ => some ((item :: done).reverse, cursor.advance 1)
      | _ => none

/-- Reads the entries of a mapping up to its closing brace, last one first. -/
def readFlowEntries : (bound : Nat) → (done : List (String × Yaml)) → Cursor →
    Option (List (String × Yaml) × Cursor)
  | 0, _, _ => none
  | bound + 1, done, cursor => do
    let cursor := skipFlow cursor
    match cursor.rest with
    | '\x7d' :: _ => some (done.reverse, cursor.advance 1)
    | _ =>
      let (value, _, cursor) ← readScalar true 0 cursor
      let key ← value.scalar?
      let cursor := skipFlow cursor
      let (held, cursor) ← match cursor.rest with
        | ':' :: _ => do
          let (held, cursor) ← readFlowValue bound (skipFlow (cursor.advance 1))
          some (held, skipFlow cursor)
        | _ => some (empty, cursor)
      match cursor.rest with
      | ',' :: _ => readFlowEntries bound ((key, held) :: done) (cursor.advance 1)
      | '\x7d' :: _ => some (((key, held) :: done).reverse, cursor.advance 1)
      | _ => none

end

/-! ### Block collections -/

mutual

/-- Reads a value at or behind the margin, which is empty if there is none. `dashes` is the column
at which the items of a sequence may stand although it is before the margin; `keys` says whether a
collection may begin on this line. -/
def readBlock : (bound margin : Nat) → (dashes : Option Nat) → (keys : Bool) → Cursor →
    Option (Yaml × Cursor)
  | 0, _, _, _, _ => none
  | bound + 1, margin, dashes, keys, cursor =>
    let (ended, point) := skipSpace (!keys) cursor
    let keys := keys || ended
    if point.rest.isEmpty || point.atMarker then some (empty, cursor)
    else if ended && point.column < margin
        && !(dashes == some point.column && atDash point.rest) then some (empty, cursor)
    else if atDash point.rest then
      if keys then
        (readItems bound point.column [] point).map fun (items, rest) => (.sequence items, rest)
      else none
    else match point.rest with
      | '[' :: _ => readFlow bound point
      | '\x7b' :: _ => readFlow bound point
      | _ => do
        let (value, oneLine, rest) ← readScalar false margin point
        match keyColon? rest, value with
        | some after, .scalar _ key =>
          if keys && oneLine then
            let (entries, rest) ← readEntries bound point.column [] key after
            some (.mapping entries, rest)
          else none
        | _, value => some (value, rest)

/-- Reads the items of a sequence at a column, from a dash on, last one first. -/
def readItems : (bound column : Nat) → (done : List Yaml) → Cursor →
    Option (List Yaml × Cursor)
  | 0, _, _, _ => none
  | bound + 1, column, done, cursor => do
    let (item, rest) ← readBlock bound (column + 1) none true (cursor.advance 1)
    let (ended, point) := skipSpace true rest
    if point.rest.isEmpty || point.atMarker then some ((item :: done).reverse, rest)
    else if !ended then none
    else if point.column = column && atDash point.rest then
      readItems bound column (item :: done) point
    else some ((item :: done).reverse, rest)

/-- Reads the entries of a mapping at a column, from behind the colon of its first key, last one
first. -/
def readEntries : (bound column : Nat) → (done : List (String × Yaml)) → (key : String) →
    Cursor → Option (List (String × Yaml) × Cursor)
  | 0, _, _, _, _ => none
  | bound + 1, column, done, key, cursor => do
    let (value, rest) ← readBlock bound (column + 1) (some column) false cursor
    let done := (key, value) :: done
    let (ended, point) := skipSpace true rest
    if point.rest.isEmpty || point.atMarker then some (done.reverse, rest)
    else if !ended then none
    else if point.column < column then some (done.reverse, rest)
    else if column < point.column then none
    else
      let (value, oneLine, after) ← readScalar false (column + 1) point
      let next ← value.scalar?
      let after ← keyColon? after
      if oneLine then readEntries bound column done next after else none

end

/-! ### Documents -/

/-- The characters that a document may hold. -/
def isAllowed (c : Char) : Bool :=
  let n := c.toNat
  n == 0x09 || n == 0x0A || (0x20 ≤ n && n ≤ 0x7E) || n == 0x85
    || (0xA0 ≤ n && n != 0xFEFF && n != 0xFFFE && n != 0xFFFF)

/-- A text with every line end written as a line feed. -/
def normalEnds : List Char → List Char
  | '\r' :: '\n' :: r => '\n' :: normalEnds r
  | '\r' :: r => '\n' :: normalEnds r
  | '\u0085' :: r => '\n' :: normalEnds r
  | c :: r => c :: normalEnds r
  | [] => []

/-- Whether nothing but a marker of the document's end follows. -/
def isFinished (cursor : Cursor) : Bool :=
  let point := (skipSpace true cursor).2
  if point.rest.take 3 == "...".toList && point.atMarker then
    (skipSpace true (point.advance 3)).2.rest.isEmpty
  else point.rest.isEmpty

/-- Reads a text that is one document. -/
def read (text : String) : Option Yaml :=
  let chars := match text.toList with
    | '\ufeff' :: r => normalEnds r
    | s => normalEnds s
  if !chars.all isAllowed then none
  else
    let bound := 4 * chars.length + 8
    let start : Cursor := (skipSpace false ⟨chars, 0⟩).2
    let (keys, start) := if start.atMarker && start.rest.take 3 == "---".toList then
        (false, start.advance 3)
      else (true, start)
    match readBlock bound 0 none keys start with
    | some (value, rest) => if isFinished rest then some value else none
    | none => none

end TypedClients.Yaml
