import TypedClients.Filter.CharMap
import TypedClients.Filter.LineEdit
import TypedClients.Filter.Script.Reader
import TypedClients.Keyed

/-!
# Running scripts

A script runs on a state: the input that is left, the variables, the status of the last command,
and what has been written on the two channels. Each channel of a command leads to one of them or
nowhere.

## How a script runs

Commands run one after the other on the state. The two parts of a pipe run one after the other as
well, the second on all that the first has written; nothing runs at the same time. A simple command
is one of the shell's own or a filter of the list (`filter?`). That a script ends early is part of
its state (`State.ended`), and every form that holds the command which ended it stops there.

## What is not here

* Files. Input comes from the input of the script or from nowhere, and what is written to a file
  goes nowhere.
* Jobs, signals and the environment. A command behind an ampersand runs in its turn.
* Patterns in the branches of a `case` other than the star and the question mark.
-/

namespace TypedClients.Script

/-- Where a channel leads. -/
inductive Sink where
  | output
  | report
  | nowhere
  deriving DecidableEq, Repr

/-- Where the two channels of a command lead. -/
structure Channels where
  output : Sink
  report : Sink

/-- The state of a run. -/
structure State where
  input : List UInt8
  arguments : List String
  bindings : List (String × String)
  status : Nat
  /-- Whether the script has been ended. -/
  ended : Bool
  output : List UInt8
  report : List UInt8

namespace State

/-- Writes bytes where a channel leads. -/
def write (sink : Sink) (bytes : List UInt8) (s : State) : State :=
  match sink with
  | .output => { s with output := s.output ++ bytes }
  | .report => { s with report := s.report ++ bytes }
  | .nowhere => s

/-- Writes a line about something that went wrong. -/
def complain (channels : Channels) (status : Nat) (line : String) (s : State) : State :=
  { s.write channels.report (Text.encode ("sh: 1: " ++ line ++ "\n")) with status := status }

/-- The values of a parameter: several for the list of the arguments. -/
def parameter (s : State) (name : String) : List String :=
  match name with
  | "@" => s.arguments.drop 1
  | "*" => [" ".intercalate (s.arguments.drop 1)]
  | "#" => [toString (s.arguments.length - 1)]
  | "?" => [toString s.status]
  | "$" => ["1"]
  | name =>
    if !name.isEmpty && name.toList.all Char.isDigit then
      [s.arguments[Text.decimalValue name.toList]?.getD ""]
    else [(Keyed.get? name s.bindings).getD ""]

end State

/-! ### Words -/

/-- A word as one text. -/
def textOf (s : State) (word : ScriptWord) : List Char :=
  word.flatMap fun
    | .char _ c => [c]
    | .parameter _ name => (" ".intercalate (s.parameter name)).toList
    | .empty => []

/-- The fields that have been finished, last first, and the one that is open. -/
abbrev Fields := List (List Char) × Option (List Char)

/-- Finishes the open field. -/
def finishField (fields : Fields) : Fields :=
  match fields.2 with
  | some field => (field :: fields.1, none)
  | none => fields

/-- Adds characters to the open field. -/
def addToField (fields : Fields) (chars : List Char) : Fields :=
  (fields.1, some (fields.2.getD [] ++ chars))

/-- Adds a text that is cut at its blanks. -/
def addSplit (fields : Fields) (text : String) : Fields :=
  text.toList.foldl
    (fun fields c =>
      if c = ' ' || c = '\t' || c = '\n' then finishField fields else addToField fields [c])
    fields

/-- Adds texts each of which begins a new field, except the first. -/
def addEach (add : Fields → String → Fields) (fields : Fields) : List String → Fields
  | [] => fields
  | [text] => add fields text
  | text :: rest => addEach add (finishField (add fields text)) rest

/-- The fields that a word becomes. -/
def fieldsOf (s : State) (word : ScriptWord) : List String :=
  let step (fields : Fields) : WordPiece → Fields
    | .char _ c => addToField fields [c]
    | .empty => addToField fields []
    | .parameter true name =>
      addEach (fun f text => addToField f text.toList) fields (s.parameter name)
    | .parameter false name => addEach addSplit fields (s.parameter name)
  ((finishField (word.foldl step ([], none))).1.reverse).map String.ofList

/-- The pattern of a branch: a star stands for any text, a question mark for one character. -/
def branchPattern (s : State) : ScriptWord → Pattern
  | [] => .finish
  | .char false '*' :: r => .seq (.many (.oneOf true [])) (branchPattern s r)
  | .char false '?' :: r => .seq (.oneOf true []) (branchPattern s r)
  | .char _ c :: r => .seq (.char c) (branchPattern s r)
  | .parameter _ name :: r =>
    (" ".intercalate (s.parameter name)).toList.foldr (fun c p => .seq (.char c) p)
      (branchPattern s r)
  | .empty :: r => branchPattern s r

/-- Whether one of the patterns fits the subject. -/
def fits (s : State) (subject : ScriptWord) (patterns : List ScriptWord) : Bool :=
  patterns.any fun p => ((branchPattern s p).matchAt? (textOf s subject) 0).isSome

/-! ### Commands -/

/-- The bytes of a text with escapes, and whether it ends the writing. -/
def escapedBytes (zeroLed : Bool) : (passed : Nat) → List Char → List UInt8 × Bool
  | _, [] => ([], false)
  | passed + 1, _ :: r => escapedBytes zeroLed passed r
  | 0, ['\\'] => ([0x5C], false)
  | 0, '\\' :: c :: r =>
    if c = 'c' then ([], true)
    else if Filter.isOctal c && (!zeroLed || c = '0') then
      let digits := ((if zeroLed then r else c :: r).take 3).takeWhile Filter.isOctal
      let taken := if zeroLed then digits.length + 1 else digits.length
      let (bytes, stops) := escapedBytes zeroLed taken (c :: r)
      (Filter.octalByte digits :: bytes, stops)
    else
      let (bytes, stops) := escapedBytes zeroLed 1 (c :: r)
      ((match Filter.escapedByte? c with
        | some b => [b]
        | none => 0x5C :: Text.encodeChar c) ++ bytes, stops)
  | 0, c :: r =>
    let (bytes, stops) := escapedBytes zeroLed 0 r
    (Text.encodeChar c ++ bytes, stops)

/-- What `echo` writes. -/
def echo (arguments : List String) : List UInt8 :=
  let (ending, arguments) : List UInt8 × List String := match arguments with
    | "-n" :: rest => ([], rest)
    | arguments => ([0x0A], arguments)
  let (bytes, stops) := escapedBytes true 0 (" ".intercalate arguments).toList
  bytes ++ if stops then [] else ending

/-- One round of `printf` over its format: what it writes, and the arguments that are left. -/
def formatOnce : (passed : Nat) → List Char → List String → List UInt8 × List String
  | _, [], arguments => ([], arguments)
  | passed + 1, _ :: r, arguments => formatOnce passed r arguments
  | 0, '%' :: c :: r, arguments =>
    let value := arguments.head?.getD ""
    let (written, left) : List UInt8 × List String := match c with
      | '%' => ([0x25], arguments)
      | 'b' => ((escapedBytes true 0 value.toList).1, arguments.drop 1)
      | 'd' => (Text.encode (if value.isEmpty then "0" else value), arguments.drop 1)
      | 'c' => ((value.toList.take 1).flatMap Text.encodeChar, arguments.drop 1)
      | _ => (Text.encode value, arguments.drop 1)
    let (bytes, left) := formatOnce 1 (c :: r) left
    (written ++ bytes, left)
  | 0, '\\' :: c :: r, arguments =>
    let piece := if Filter.isOctal c then '\\' :: (c :: r.take 2).takeWhile Filter.isOctal
      else ['\\', c]
    let written := if c = '"' then [0x22] else (escapedBytes false 0 piece).1
    let (bytes, left) := formatOnce (piece.length - 1) (c :: r) arguments
    (written ++ bytes, left)
  | 0, c :: r, arguments =>
    let (bytes, left) := formatOnce 0 r arguments
    (Text.encodeChar c ++ bytes, left)

/-- Uses a format until it has taken all arguments. -/
def formatAll (text : String) : (bound : Nat) → List String → List UInt8
  | 0, _ => []
  | bound + 1, arguments =>
    let (bytes, left) := formatOnce 0 text.toList arguments
    bytes ++ if left.isEmpty || left.length = arguments.length then []
      else formatAll text bound left

/-- Whether a condition holds. -/
def holds : List String → Bool
  | [a] => !a.isEmpty
  | ["!", a] => a.isEmpty
  | ["-n", a] => !a.isEmpty
  | ["-z", a] => a.isEmpty
  | [a, "=", b] => a == b
  | [a, "!=", b] => a != b
  | [a, "-eq", b] => a == b
  | [a, "-ne", b] => a != b
  | _ => false

/-- The filter of a name. -/
def filter? (name : String) : Option Filter :=
  match name with
  | "cat" => some Filter.cat
  | "tr" => some Filter.tr
  | "sed" => some Filter.sed
  | _ => none

/-- Runs a simple command. -/
def runCommand (channels : Channels) (s : State) : List String → State
  | [] => s
  | name :: arguments =>
    match filter? name with
    | some filter =>
      let outcome := filter arguments s.input
      let s := (s.write channels.output outcome.output).write channels.report outcome.report
      { s with input := [], status := outcome.status }
    | none =>
      match name with
      | "echo" => { s.write channels.output (echo arguments) with status := 0 }
      | "printf" =>
        match arguments with
        | [] => s.complain channels 2 "printf: usage: printf format [arg ...]"
        | text :: values =>
          { s.write channels.output (formatAll text (values.length + 1) values) with status := 0 }
      | "exit" =>
        let status := match arguments.head? with
          | some n => Text.decimalValue n.toList % 256
          | none => s.status
        { s with status := status, ended := true }
      | "true" => { s with status := 0 }
      | ":" => { s with status := 0 }
      | "set" => { s with status := 0 }
      | "false" => { s with status := 1 }
      | "kill" => { s with status := 137, ended := true }
      | "shift" =>
        { s with status := 0, arguments := s.arguments.take 1 ++ s.arguments.drop 2 }
      | "test" => { s with status := if holds arguments then 0 else 1 }
      | "[" => { s with status := if holds arguments.dropLast then 0 else 1 }
      | name => s.complain channels 127 (name ++ ": not found")

/-- Runs a simple command, or another one in the place of the script. -/
def runCall (channels : Channels) (s : State) : List String → State
  | "exec" :: command => { runCommand channels s command with ended := true }
  | "command" :: command => runCommand channels s command
  | command => runCommand channels s command

/-! ### Scripts -/

/-- Where a text says that a channel is to lead. -/
def sinkOf (channels : Channels) (target : String) : Sink :=
  match target with
  | "/dev/stdout" => channels.output
  | "/dev/stderr" => channels.report
  | _ => .nowhere

/-- Lets a channel lead to a sink. -/
def lead (channel : Nat) (sink : Sink) (channels : Channels) : Channels :=
  match channel with
  | 1 => { channels with output := sink }
  | 2 => { channels with report := sink }
  | _ => channels

/-- What the redirections of a command come to: its channels, and its input if it is another one;
or what cannot be opened. -/
def redirect (s : State) : Channels × Option (List UInt8) → List Redirect →
    Except String (Channels × Option (List UInt8))
  | sofar, [] => .ok sofar
  | (channels, input), first :: rest =>
    match first with
    | .input source =>
      let path := String.ofList (textOf s source)
      if path = "/dev/null" then redirect s (channels, some []) rest
      else if path = "/dev/stdin" then redirect s (channels, input) rest
      else .error ("cannot open " ++ path ++ ": No such file")
    | .output channel target =>
      let sink := sinkOf channels (String.ofList (textOf s target))
      redirect s (lead channel sink channels, input) rest
    | .copy channel target =>
      let sink := match textOf s target with
        | ['1'] => channels.output
        | ['2'] => channels.report
        | _ => .nowhere
      redirect s (lead channel sink channels, input) rest

/-- Runs something with redirections. -/
def withRedirects (channels : Channels) (redirects : List Redirect) (s : State)
    (run : Channels → State → State) : State :=
  match redirect s (channels, none) redirects with
  | .error line => s.complain channels 2 line
  | .ok (channels, none) => run channels s
  | .ok (channels, some input) => { run channels { s with input := input } with input := s.input }

/-- Runs a script. -/
def run : Script → Channels → State → State
  | .skip, _, s => { s with status := 0 }
  | .call assignments words redirects, channels, s =>
    let command := words.flatMap (fieldsOf s)
    withRedirects channels redirects s fun channels s =>
      if command.isEmpty then
        { s with
          status := 0
          bindings := assignments.foldl
            (fun vs (name, value) => Keyed.insert name (String.ofList (textOf s value)) vs)
            s.bindings }
      else runCall channels s command
  | .seq first second, channels, s =>
    let s := run first channels s
    if s.ended then s
    else match second with
      | .skip => s
      | second => run second channels s
  | .both first second, channels, s =>
    let s := run first channels s
    if s.ended || s.status != 0 then s else run second channels s
  | .either first second, channels, s =>
    let s := run first channels s
    if s.ended || s.status == 0 then s else run second channels s
  | .negated body, channels, s =>
    let s := run body channels s
    if s.ended then s else { s with status := if s.status = 0 then 1 else 0 }
  | .pipe first second, channels, s =>
    let before := run first { channels with output := .output } { s with output := [] }
    let after := run second channels
      { s with input := before.output, report := before.report }
    { s with
      input := before.input
      status := after.status
      output := after.output
      report := after.report }
  | .block isolated body redirects, channels, s =>
    let after := withRedirects channels redirects s (run body)
    if isolated then
      { after with bindings := s.bindings, arguments := s.arguments, ended := false }
    else after
  | .choice condition yes no, channels, s =>
    let s := run condition channels s
    if s.ended then s else if s.status = 0 then run yes channels s else run no channels s
  | .matching subject patterns body rest, channels, s =>
    if fits s subject patterns then run body channels s else run rest channels s

end TypedClients.Script

namespace TypedClients.Filter

/-- Runs a text as a script. -/
def runScript (text : String) (arguments : List String) (input : List UInt8) : Outcome :=
  let failed (reason : String) : Outcome := .failure 2 ("sh: 1: Syntax error: " ++ reason)
  match ScriptToken.ofText? text with
  | none => failed "Unterminated quoted string"
  | some tokens =>
    match Script.ofTokens? tokens with
    | none => failed "end of file unexpected"
    | some script =>
      let s := script.run ⟨.output, .report⟩ ⟨input, arguments, [], 0, false, [], []⟩
      ⟨s.status, s.output, s.report⟩

/-- Runs the script that its arguments or its input hold. -/
def sh : Filter := fun arguments input =>
  match arguments with
  | "-c" :: script :: rest => runScript script (if rest.isEmpty then ["sh"] else rest) input
  | ["-c"] => .failure 2 "sh: 0: -c requires an argument"
  | "-e" :: "-c" :: script :: rest =>
    runScript script (if rest.isEmpty then ["sh"] else rest) input
  | [] => runScript (Text.ofBytes input) ["sh"] []
  | path :: _ => .failure 2 ("sh: 0: cannot open " ++ path ++ ": No such file")

/-- The programs that are always there. -/
def standard : Programs := fun name =>
  match name with
  | "cat" => some cat
  | "tr" => some tr
  | "sed" => some sed
  | "sh" => some sh
  | "true" => some fun _ _ => .success []
  | "false" => some fun _ _ => ⟨1, [], []⟩
  | "echo" => some fun arguments _ => .success (Text.encode (" ".intercalate arguments ++ "\n"))
  | _ => none

end TypedClients.Filter
