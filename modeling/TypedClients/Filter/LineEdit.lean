import TypedClients.Filter.Basic
import TypedClients.Pattern.Reader

/-!
# Editing lines

`sed` runs its commands on every line of its input and writes what has become of the line. Bytes
are edited as characters of the same number.

The notation of its patterns is turned into the one that `Pattern.parse?` reads: a group, a bar and
the signs of repetition have a backslash before them, and stand for themselves without it.

## What is read

Addresses are line numbers, the last line and patterns, alone or in pairs, and may be negated. The
commands are those that substitute, exchange characters, delete, print, quit, and write a line
before, behind or instead of the one that is edited. A script is read once and then run on every
line (`runLines`).

## What is not here

* The hold space, labels and jumps, and files to read from or to write to. A script that uses them
  is refused, as a broken one is.
* The memory of a pair of addresses. Whether a line stands between the two is told from the line
  itself, which is right for numbers and not for patterns.
* Characters of several bytes. Editing goes by bytes, so such a character is several characters
  here; patterns that are written in ASCII do not tell the difference.
-/

namespace TypedClients.Filter

/-- Which line a command is for. -/
inductive LineAddress where
  | number (n : Nat)
  | last
  | matching (pattern : Pattern)

/-- A part of what a match is replaced by. -/
inductive EditPart where
  | char (c : Char)
  | group (index : Nat)

/-- What a command does with a line. -/
inductive Edit where
  | substitute (pattern : Pattern) (parts : List EditPart) (every : Bool) (print : Bool)
  | exchange (table : List (Char × Char))
  | delete
  | print
  | quit
  | before (text : List Char)
  | after (text : List Char)
  | instead (text : List Char)

/-- A command: the lines that it is for, and what it does with them. -/
structure LineCommand where
  first : Option LineAddress
  final : Option LineAddress
  negated : Bool
  edit : Edit

namespace LineCommand

/-! ### Reading commands -/

/-- Why a script cannot be read, and after how many characters that shows. -/
structure ScriptFault where
  position : Nat
  reason : String

/-- The notation of a pattern in the one with plain signs. -/
def plainNotation : (first : Bool) → (bracket : Nat) → List Char → List Char
  | _, _, [] => []
  | _, 0, '\\' :: c :: r =>
    if "(){}+?|".contains c then c :: plainNotation (c == '(' || c == '|') 0 r
    else '\\' :: c :: plainNotation false 0 r
  | first, 0, '*' :: r => if first then '\\' :: '*' :: plainNotation false 0 r
      else '*' :: plainNotation false 0 r
  | first, 0, '^' :: r => if first then '^' :: plainNotation true 0 r
      else '\\' :: '^' :: plainNotation false 0 r
  | _, 0, '$' :: r =>
    if r.isEmpty || r.take 2 == ['\\', ')'] || r.take 2 == ['\\', '|'] then
      '$' :: plainNotation false 0 r
    else '\\' :: '$' :: plainNotation false 0 r
  | _, 0, '[' :: '^' :: r => '[' :: '^' :: plainNotation false 1 r
  | _, 0, '[' :: r => '[' :: plainNotation false 1 r
  | _, 0, c :: r =>
    if "(){}+?|".contains c then '\\' :: c :: plainNotation false 0 r
    else c :: plainNotation false 0 r
  | _, 1, c :: r => if c = '\\' then '\\' :: c :: plainNotation false 2 r
      else c :: plainNotation false 2 r
  | _, depth + 2, c :: r =>
    if c = ']' then c :: plainNotation false 0 r
    else if c = '\\' then '\\' :: c :: plainNotation false (depth + 2) r
    else c :: plainNotation false (depth + 2) r

/-- Reads up to a delimiter. A delimiter behind a backslash stands for itself. -/
def readField (delimiter : Char) : List Char → Option (List Char × List Char)
  | [] => none
  | '\\' :: c :: r =>
    (readField delimiter r).map fun (field, rest) =>
      (if c = delimiter then c :: field else '\\' :: c :: field, rest)
  | c :: r =>
    if c = delimiter then some ([], r)
    else (readField delimiter r).map fun (field, rest) => (c :: field, rest)

/-- The parts of a replacement. -/
def partsOf : List Char → List EditPart
  | [] => []
  | '\\' :: 'n' :: r => .char '\n' :: partsOf r
  | '\\' :: c :: r => (if c.isDigit then .group (c.toNat - '0'.toNat) else .char c) :: partsOf r
  | '&' :: r => .group 0 :: partsOf r
  | c :: r => .char c :: partsOf r

/-- Reads a pattern from its notation. -/
def readPattern? (extended : Bool) (notation_ : List Char) : Option Pattern :=
  Pattern.parse? (String.ofList (if extended then notation_ else plainNotation true 0 notation_))

/-- Reads an address, if one stands here. -/
def readAddress (extended : Bool) (s : List Char) : Option LineAddress × List Char :=
  match s with
  | '$' :: r => (some .last, r)
  | '/' :: r =>
    match readField '/' r with
    | some (field, rest) => ((readPattern? extended field).map .matching, rest)
    | none => (none, s)
  | s =>
    let digits := s.takeWhile Char.isDigit
    if digits.isEmpty then (none, s)
    else (some (.number (Text.decimalValue digits)), s.dropWhile Char.isDigit)

/-- The text behind one of the commands that take a line of it. -/
def lineText (s : List Char) : List Char :=
  let s := s.dropWhile fun c => c == ' ' || c == '\t'
  match s with
  | '\\' :: '\n' :: r => r
  | '\\' :: r => r
  | s => s

/-- Reads what a command does. `total` is the length of the script. -/
def readEdit (extended : Bool) (total : Nat) (s : List Char) :
    Except ScriptFault (Edit × List Char) :=
  let at_ (rest : List Char) : Nat := total - rest.length
  match s with
  | [] => .error ⟨total, "missing command"⟩
  | 'd' :: r => .ok (.delete, r)
  | 'p' :: r => .ok (.print, r)
  | 'q' :: r => .ok (.quit, r)
  | 'i' :: r => .ok (.before (lineText r), [])
  | 'a' :: r => .ok (.after (lineText r), [])
  | 'c' :: r => .ok (.instead (lineText r), [])
  | 's' :: delimiter :: r =>
    match readField delimiter r with
    | none => .error ⟨total, "unterminated `s' command"⟩
    | some (old, r) =>
      match readField delimiter r with
      | none => .error ⟨total, "unterminated `s' command"⟩
      | some (new, r) =>
        let flags := r.takeWhile fun c => c == 'g' || c == 'p'
        let rest := r.drop flags.length
        match readPattern? extended old with
        | some pattern =>
          .ok (.substitute pattern (partsOf new) (flags.contains 'g') (flags.contains 'p'), rest)
        | none => .error ⟨at_ rest, "Unmatched ( or \\("⟩
  | ['s'] => .error ⟨total, "unterminated `s' command"⟩
  | 'y' :: delimiter :: r =>
    match readField delimiter r with
    | none => .error ⟨total, "unterminated `y' command"⟩
    | some (old, r) =>
      match readField delimiter r with
      | none => .error ⟨total, "unterminated `y' command"⟩
      | some (new, r) =>
        if old.length = new.length then .ok (.exchange (old.zip new), r)
        else .error ⟨at_ r, "strings for `y' command are different lengths"⟩
  | ['y'] => .error ⟨total, "unterminated `y' command"⟩
  | c :: r => .error ⟨at_ r, "unknown command: `" ++ String.ofList [c] ++ "'"⟩

/-- Whether a character stands between commands. -/
def isBetween (c : Char) : Bool :=
  c == ' ' || c == '\t' || c == '\n' || c == ';'

/-- Reads the commands of a script. Each takes a character, so the bound that the length sets is
never met. -/
def readAll (extended : Bool) (total : Nat) :
    (bound : Nat) → List Char → Except ScriptFault (List LineCommand)
  | 0, _ => .ok []
  | bound + 1, s =>
    match s.dropWhile isBetween with
    | [] => .ok []
    | s => do
      let (first, s) := readAddress extended s
      let (final, s) := match first, s with
        | some _, ',' :: r => readAddress extended r
        | _, s => (none, s)
      let s := s.dropWhile fun c => c == ' '
      let (negated, s) := match s with
        | '!' :: r => (true, r)
        | s => (false, s)
      let (edit, s) ← readEdit extended total s
      let s := s.dropWhile fun c => c == ' ' || c == '\t'
      match s with
      | c :: r =>
        if isBetween c then
          let commands ← readAll extended total bound s
          .ok (⟨first, final, negated, edit⟩ :: commands)
        else
          let reason := match edit with
            | .substitute .. => "unknown option to `s'"
            | _ => "extra characters after command"
          .error ⟨total - r.length, reason⟩
      | [] => .ok [⟨first, final, negated, edit⟩]

/-! ### Running commands -/

/-- A line with its number, and whether it is the last one. -/
structure Line where
  number : Nat
  isLast : Bool
  text : List Char

/-- Whether an address is one of a line. -/
def addresses (line : Line) : LineAddress → Bool
  | .number n => line.number == n
  | .last => line.isLast
  | .matching pattern => (pattern.find? 0 line.text).isSome

/-- Whether a line is not behind the end of a range. -/
def reaches (line : Line) : LineAddress → Bool
  | .number n => line.number ≤ n
  | .last => true
  | .matching _ => true

/-- Whether a line is not before the beginning of a range. -/
def follows (line : Line) : LineAddress → Bool
  | .number n => n ≤ line.number
  | .last => line.isLast
  | .matching pattern => (pattern.find? 0 line.text).isSome

/-- Whether a command is for a line. -/
def isFor (command : LineCommand) (line : Line) : Bool :=
  let selected := match command.first, command.final with
    | none, _ => true
    | some first, none => addresses line first
    | some first, some final => addresses line first || follows line first && reaches line final
  selected != command.negated

/-- What has been made of a line so far: its text, what was written before and is to be written
after it, and whether it is done with or is the last one to be read. -/
structure Progress where
  text : List Char
  written : List (List Char)
  behind : List (List Char)
  deleted : Bool
  ended : Bool

/-- The replacement of a match. -/
def replacementOf (parts : List EditPart) (found : Pattern.Found) : List Char :=
  parts.flatMap fun
    | .char c => [c]
    | .group index => found.group index

/-- Does one thing with a line. -/
def Edit.apply (p : Progress) : Edit → Progress
  | .substitute pattern parts every print =>
    match pattern.find? 0 p.text with
    | none => p
    | some _ =>
      let text := if every then pattern.replaceAll (replacementOf parts) p.text
        else pattern.replaceFirst (replacementOf parts) p.text
      { p with text := text, written := if print then p.written ++ [text] else p.written }
  | .exchange table =>
    { p with text := p.text.map fun c => ((table.find? fun e => e.1 == c).map Prod.snd).getD c }
  | .delete => { p with deleted := true }
  | .print => { p with written := p.written ++ [p.text] }
  | .quit => { p with ended := true }
  | .before text => { p with written := p.written ++ [text] }
  | .after text => { p with behind := p.behind ++ [text] }
  | .instead text => { p with deleted := true, written := p.written ++ [text] }

/-- Runs commands on a line. -/
def runAll (commands : List LineCommand) (line : Line) : Progress :=
  commands.foldl
    (fun p command =>
      if p.deleted || p.ended then p
      else if command.isFor { line with text := p.text } then Edit.apply p command.edit
      else p)
    ⟨line.text, [], [], false, false⟩

/-- Runs commands on every line, and gives the lines that are written. -/
def runLines (commands : List LineCommand) (quiet : Bool) : (number : Nat) → List (List Char) →
    List (List Char)
  | _, [] => []
  | number, text :: rest =>
    let p := runAll commands ⟨number, rest.isEmpty, text⟩
    let written := p.written ++ (if quiet || p.deleted then [] else [p.text]) ++ p.behind
    if p.ended then written else written ++ runLines commands quiet (number + 1) rest

end LineCommand

/-- The lines of an input, and whether the last one has an end. -/
def linesOf (input : List Char) : List (List Char) × Bool :=
  match (Text.split '\n' input).reverse with
  | [] :: before => (before.reverse, true)
  | pieces => (pieces.reverse, false)

/-- Bytes as characters of the same number. -/
def asChars (bytes : List UInt8) : List Char :=
  bytes.map fun b => Char.ofNat b.toNat

/-- The arguments of `sed`: whether it is quiet, whether patterns have plain signs, its scripts,
and its operands. -/
def sedArguments : List String → Bool × Bool × List String × List String
  | [] => (false, false, [], [])
  | "-e" :: script :: rest =>
    let (quiet, extended, scripts, operands) := sedArguments rest
    (quiet, extended, script :: scripts, operands)
  | argument :: rest =>
    let (quiet, extended, scripts, operands) := sedArguments rest
    match argument with
    | "-n" => (true, extended, scripts, operands)
    | "-E" => (quiet, true, scripts, operands)
    | "-r" => (quiet, true, scripts, operands)
    | "-u" => (quiet, extended, scripts, operands)
    | "--" => (quiet, extended, scripts, operands)
    | operand => (quiet, extended, scripts, operand :: operands)

/-- Edits the lines of the input. -/
def sed : Filter := fun arguments input =>
  let (quiet, extended, scripts, operands) := sedArguments arguments
  let (scripts, operands) := match scripts, operands with
    | [], script :: operands => ([script], operands)
    | scripts, operands => (scripts, operands)
  match scripts with
  | [] => .failure 1 "Usage: sed [OPTION]... \x7bscript-only-if-no-other-script\x7d [input-file]..."
  | scripts =>
    let script := asChars (Text.encode ("\n".intercalate scripts))
    match LineCommand.readAll extended script.length (script.length + 1) script with
    | .error fault =>
      .failure 1 ("sed: -e expression #1, char " ++ toString fault.position ++ ": " ++ fault.reason)
    | .ok commands =>
      match operands with
      | [] =>
        let (lines, ended) := linesOf (asChars input)
        let written := LineCommand.runLines commands quiet 1 lines
        let text := ['\n'].intercalate written
        .success ((text ++ if ended && !written.isEmpty then ['\n'] else []).map
          fun c => UInt8.ofNat c.toNat)
      | operand :: _ => .failure 2 ("sed: can't read " ++ operand ++ ": No such file or directory")

end TypedClients.Filter
