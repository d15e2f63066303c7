import TypedClients.Filter.Script.Basic

/-!
# Tokens of a script

A script is a row of words, operators and line ends. Quotes and backslashes take away the meaning
of what they enclose; a word goes on as long as nothing stands between its pieces.

Whether a word belongs to the grammar is not decided here, since it depends on where the word
stands; nor is what a parameter stands for. What is decided is where words end, which of their
characters were quoted, and which signs are operators. A digit right before a sign of redirection is
the channel that the sign is for, and no word.
-/

namespace TypedClients

/-- A token of a script. -/
inductive ScriptToken where
  | word (word : ScriptWord)
  | operator (text : String)
  /-- A sign of redirection with the channel that it is for. -/
  | redirect (sign : String) (channel : Option Nat)
  | lineEnd
  deriving DecidableEq, Repr

namespace ScriptToken

/-- How the characters that are being read are quoted. -/
inductive Quoting where
  | none
  | single
  | double

/-- Whether a character may stand in the name of a variable. -/
def isNameChar (c : Char) : Bool := c.isAlphanum || c == '_'

/-- Reads the name of a parameter from behind the dollar sign. -/
def readParameter? (s : List Char) : Option (String × List Char) :=
  match s with
  | '\x7b' :: r =>
    match r.span fun c => c != '\x7d' with
    | (name, _ :: rest) => some (String.ofList name, rest)
    | (_, []) => none
  | c :: r =>
    if c.isDigit || "@*#?$".contains c then some (String.ofList [c], r)
    else if isNameChar c then
      let name := s.takeWhile isNameChar
      some (String.ofList name, s.drop name.length)
    else none
  | [] => none

/-- Puts the word that has been read before the tokens that follow it. -/
def withWord (word : Option ScriptWord) (tokens : List ScriptToken) : List ScriptToken :=
  match word with
  | some pieces => .word pieces.reverse :: tokens
  | none => tokens

/-- The channel that a word before a sign of redirection names. -/
def channelOf? (word : Option ScriptWord) : Option Nat :=
  match word with
  | some [.char false c] => if c.isDigit then some (c.toNat - '0'.toNat) else none
  | _ => none

/-- The operator at the beginning of `s`. -/
def operator? (s : List Char) : Option String :=
  [";;", "&&", "||", ";", "&", "|", "(", ")"].find? fun o => o.toList.isPrefixOf s

/-- The sign of redirection at the beginning of `s`. -/
def redirect? (s : List Char) : Option String :=
  [">>", ">&", ">|", "<&", ">", "<"].find? fun o => o.toList.isPrefixOf s

/-- Reads the tokens of a script; `none` if a quote is not closed. `open_` is the word
that is being read, last piece first. Every round takes a character, so the bound that the length
sets is never met. -/
def readAll : (bound : Nat) → Quoting → (open_ : Option ScriptWord) → List Char →
    Option (List ScriptToken)
  | _, .none, open_, [] => some (withWord open_ [])
  | _, _, _, [] => none
  | 0, _, _, _ => none
  | bound + 1, .single, open_, c :: r =>
    if c = '\'' then readAll bound .none open_ r
    else readAll bound .single (some (.char true c :: open_.getD [])) r
  | bound + 1, .double, open_, c :: r =>
    let pieces := open_.getD []
    if c = '"' then readAll bound .none open_ r
    else if c = '\\' then
      match r with
      | d :: r' =>
        if "$`\"\\".contains d then readAll bound .double (some (.char true d :: pieces)) r'
        else if d = '\n' then readAll bound .double open_ r'
        else readAll bound .double (some (.char true c :: pieces)) r
      | [] => none
    else if c = '$' then
      match readParameter? r with
      | some (name, r) => readAll bound .double (some (.parameter true name :: pieces)) r
      | none => readAll bound .double (some (.char true c :: pieces)) r
    else readAll bound .double (some (.char true c :: pieces)) r
  | bound + 1, .none, open_, c :: r =>
    let pieces := open_.getD []
    if c = ' ' || c = '\t' then (readAll bound .none none r).map (withWord open_)
    else if c = '\n' then
      (readAll bound .none none r).map fun tokens => withWord open_ (.lineEnd :: tokens)
    else if c = '\'' then readAll bound .single (some (.empty :: pieces)) r
    else if c = '"' then readAll bound .double (some (.empty :: pieces)) r
    else if c = '\\' then
      match r with
      | '\n' :: r => readAll bound .none open_ r
      | d :: r => readAll bound .none (some (.char true d :: pieces)) r
      | [] => some (withWord (some (.char true c :: pieces)) [])
    else if c = '#' && open_.isNone then
      readAll bound .none none (r.dropWhile fun d => d != '\n')
    else if c = '$' then
      match readParameter? r with
      | some (name, r) => readAll bound .none (some (.parameter false name :: pieces)) r
      | none => readAll bound .none (some (.char false c :: pieces)) r
    else
      match redirect? (c :: r), operator? (c :: r) with
      | some sign, _ =>
        let channel := channelOf? open_
        let before := if channel.isSome then none else open_
        (readAll bound .none none ((c :: r).drop sign.length)).map fun tokens =>
          withWord before (.redirect sign channel :: tokens)
      | none, some text =>
        (readAll bound .none none ((c :: r).drop text.length)).map fun tokens =>
          withWord open_ (.operator text :: tokens)
      | none, none => readAll bound .none (some (.char false c :: pieces)) r

/-- The tokens of a script; `none` if a quote is not closed. -/
def ofText? (text : String) : Option (List ScriptToken) :=
  readAll (text.length + 1) .none none text.toList

end ScriptToken

end TypedClients
