import TypedClients.Filter.Script.Token

/-!
# Reading scripts

The grammar of scripts. A list is a row of commands; the forms `if`, `case`, braces and parentheses
hold lists, which end at the words that go on with the form. A reader gives what it has made of the
tokens, and those that are left.

A word belongs to the grammar only where a command may begin and only if it is not quoted, so the
readers ask for its plain text (`nextPlain?`). The readers are mutually recursive. Every step takes
a token or goes one level down, so the bound that the number of tokens sets is never met.

Loops, functions and documents in place are not read: a script that has them is refused.
-/

namespace TypedClients.Script

/-- Passes over line ends. -/
def skipLineEnds : List ScriptToken → List ScriptToken
  | .lineEnd :: r => skipLineEnds r
  | s => s

/-- The plain text of the word that comes next. -/
def nextPlain? : List ScriptToken → Option String
  | .word word :: _ => word.plain?
  | _ => none

/-- Passes over a certain word. -/
def expectWord (text : String) (s : List ScriptToken) : Option (Unit × List ScriptToken) :=
  match s with
  | .word word :: r => if word.plain? = some text then some ((), r) else none
  | _ => none

/-- Passes over a certain operator. -/
def expectOperator (text : String) (s : List ScriptToken) : Option (Unit × List ScriptToken) :=
  match s with
  | .operator o :: r => if o = text then some ((), r) else none
  | _ => none

/-- Whether a list ends before these tokens. -/
def endsList (s : List ScriptToken) : Bool :=
  match s with
  | [] => true
  | .operator o :: _ => o == ")" || o == ";;"
  | s => match nextPlain? s with
    | some word => ["then", "elif", "else", "fi", "esac", "\x7d", "do", "done"].contains word
    | none => false

/-- The assignment that a word is. -/
def assignment? (word : ScriptWord) : Option (String × ScriptWord) :=
  let isNamePiece : WordPiece → Bool
    | .char false c => ScriptToken.isNameChar c
    | _ => false
  let name := word.takeWhile isNamePiece
  match ScriptWord.plain? name, word.drop name.length with
  | some text, .char false '=' :: value =>
    match text.toList with
    | c :: _ => if c.isDigit then none else some (text, value)
    | [] => none
  | _, _ => none

/-- The redirection that a sign and the word behind it are. -/
def redirectOf (sign : String) (channel : Option Nat) (target : ScriptWord) : Redirect :=
  match sign with
  | "<" => .input target
  | "<&" => .copy (channel.getD 0) target
  | ">&" => .copy (channel.getD 1) target
  | _ => .output (channel.getD 1) target

/-- Reads redirections. -/
def readRedirects : List ScriptToken → List Redirect × List ScriptToken
  | .redirect sign channel :: .word target :: r =>
    let (redirects, rest) := readRedirects r
    (redirectOf sign channel target :: redirects, rest)
  | s => ([], s)

/-- Reads the words, assignments and redirections of a simple command. -/
def readCall (assignments : List (String × ScriptWord)) (words : List ScriptWord)
    (redirects : List Redirect) : List ScriptToken → Option (Script × List ScriptToken)
  | .redirect sign channel :: .word target :: r =>
    readCall assignments words (redirects ++ [redirectOf sign channel target]) r
  | .redirect _ _ :: _ => none
  | .word word :: r =>
    match if words.isEmpty then assignment? word else none with
    | some assignment => readCall (assignments ++ [assignment]) words redirects r
    | none => readCall assignments (words ++ [word]) redirects r
  | s =>
    if assignments.isEmpty && words.isEmpty && redirects.isEmpty then none
    else some (.call assignments words redirects, s)

/-- Reads the patterns of a branch up to the closing parenthesis. -/
def readPatterns : List ScriptToken → Option (List ScriptWord × List ScriptToken)
  | .word word :: .operator ")" :: r => some ([word], r)
  | .word word :: .operator "|" :: r =>
    (readPatterns r).map fun (patterns, rest) => (word :: patterns, rest)
  | _ => none

mutual

/-- Reads a list. -/
def readList : (bound : Nat) → List ScriptToken → Option (Script × List ScriptToken)
  | 0, _ => none
  | bound + 1, s => do
    let s := skipLineEnds s
    if endsList s then some (.skip, s)
    else
      let (first, s) ← readAndOr bound s
      match s with
      | .operator ";" :: r =>
        let (rest, s) ← readList bound r
        some (.seq first rest, s)
      | .operator "&" :: r =>
        let (rest, s) ← readList bound r
        some (.seq first rest, s)
      | .lineEnd :: r =>
        let (rest, s) ← readList bound r
        some (.seq first rest, s)
      | s => some (first, s)

/-- Reads pipelines that depend on each other's status. -/
def readAndOr : (bound : Nat) → List ScriptToken → Option (Script × List ScriptToken)
  | 0, _ => none
  | bound + 1, s => do
    let (first, s) ← readPipeline bound s
    continueAndOr bound first s

/-- Reads what depends on the status of `first`. -/
def continueAndOr : (bound : Nat) → (first : Script) → List ScriptToken →
    Option (Script × List ScriptToken)
  | 0, _, _ => none
  | bound + 1, first, s =>
    match s with
    | .operator "&&" :: r => do
      let (second, s) ← readPipeline bound (skipLineEnds r)
      continueAndOr bound (.both first second) s
    | .operator "||" :: r => do
      let (second, s) ← readPipeline bound (skipLineEnds r)
      continueAndOr bound (.either first second) s
    | s => some (first, s)

/-- Reads commands joined by pipes. -/
def readPipeline : (bound : Nat) → List ScriptToken → Option (Script × List ScriptToken)
  | 0, _ => none
  | bound + 1, s =>
    match expectWord "!" s with
    | some ((), r) => do
      let (body, s) ← readPipeline bound r
      some (.negated body, s)
    | none => do
      let (first, s) ← readCommand bound s
      match s with
      | .operator "|" :: r => do
        let (second, s) ← readPipeline bound (skipLineEnds r)
        some (.pipe first second, s)
      | s => some (first, s)

/-- Reads one command. -/
def readCommand : (bound : Nat) → List ScriptToken → Option (Script × List ScriptToken)
  | 0, _ => none
  | bound + 1, s =>
    match s with
    | .operator "(" :: r => do
      let (body, s) ← readList bound r
      let ((), s) ← expectOperator ")" s
      let (redirects, s) := readRedirects s
      some (.block true body redirects, s)
    | .word word :: r =>
      match ScriptWord.plain? word with
      | some "\x7b" => do
        let (body, s) ← readList bound r
        let ((), s) ← expectWord "\x7d" s
        let (redirects, s) := readRedirects s
        some (.block false body redirects, s)
      | some "if" => do
        let (body, s) ← readChoice bound r
        let (redirects, s) := readRedirects s
        some (.block false body redirects, s)
      | some "case" =>
        match r with
        | .word subject :: r => do
          let ((), s) ← expectWord "in" (skipLineEnds r)
          let (body, s) ← readBranches bound subject s
          let (redirects, s) := readRedirects s
          some (.block false body redirects, s)
        | _ => none
      | _ => if endsList s then none else readCall [] [] [] s
    | s => readCall [] [] [] s

/-- Reads a choice from behind its first word up to its end. -/
def readChoice : (bound : Nat) → List ScriptToken → Option (Script × List ScriptToken)
  | 0, _ => none
  | bound + 1, s => do
    let (condition, s) ← readList bound s
    let ((), s) ← expectWord "then" s
    let (yes, s) ← readList bound s
    match nextPlain? s with
    | some "elif" =>
      let (no, s) ← readChoice bound (s.drop 1)
      some (.choice condition yes no, s)
    | some "else" =>
      let (no, s) ← readList bound (s.drop 1)
      let ((), s) ← expectWord "fi" s
      some (.choice condition yes no, s)
    | some "fi" => some (.choice condition yes .skip, s.drop 1)
    | _ => none

/-- Reads the branches of a `case` up to its end. -/
def readBranches : (bound : Nat) → (subject : ScriptWord) → List ScriptToken →
    Option (Script × List ScriptToken)
  | 0, _, _ => none
  | bound + 1, subject, s => do
    let s := skipLineEnds s
    match expectWord "esac" s with
    | some ((), s) => some (.skip, s)
    | none =>
      let s := match s with
        | .operator "(" :: r => r
        | s => s
      let (patterns, s) ← readPatterns s
      let (body, s) ← readList bound s
      let s := match s with
        | .operator ";;" :: r => r
        | s => s
      let (rest, s) ← readBranches bound subject s
      some (.matching subject patterns body rest, s)

end

/-- The script that tokens make. -/
def ofTokens? (tokens : List ScriptToken) : Option Script :=
  match readList (8 * tokens.length + 8) tokens with
  | some (script, []) => some script
  | _ => none

end TypedClients.Script
