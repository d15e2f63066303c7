import TypedClients.Config.Basic

/-!
# Arguments

The command is the first argument, and its options follow in any order. An option has a long name
and may have a short one; its value stands behind it, or in the same argument after an equals sign
or right behind the short name. A value does not begin with a dash, unless it is one, and only an
option for several values may be given twice.

`Command.ofArguments?` refuses everything else.

## How it is read

Every command has a list of the options that it knows (`CommandOption`). `CommandOption.readAll`
goes through the arguments once and gives the options that they name, each with its value
(`GivenOptions`); the command then takes what it needs out of these. So how an option may be given
is said where it is listed, and what it means where the command is made. A lone `--` may end the
options, and nothing may follow it.

## What is not here

* Help texts and the completion of shells. The version is asked for by a command of its own.
* The wording of what is refused. Whether arguments are refused is here, and a run with such
  arguments ends before anything is read.
* Arguments that are no texts. They never come to this point.
-/

namespace TypedClients

/-- What an option of a command takes. -/
inductive OptionKind where
  | flag
  | value
  | values
  deriving DecidableEq, Repr

/-- An option of a command. -/
structure CommandOption where
  name : String
  short : Option Char
  kind : OptionKind

/-- The options that have been given, each with its value, in order. -/
abbrev GivenOptions := List (String × String)

namespace CommandOption

/-- What a short option has for a value in its own argument. -/
def attachedValue? (rest : List Char) : Option String :=
  match rest with
  | [] => none
  | '=' :: value => some (String.ofList value)
  | value => some (String.ofList value)

/-- The option that an argument names, and the value that it holds. -/
def named? (options : List CommandOption) (argument : String) :
    Option (CommandOption × Option String) :=
  match argument.toList with
  | '-' :: '-' :: long =>
    let (name, value) := match Text.splitOnce '=' long with
      | some (name, value) => (name, some (String.ofList value))
      | none => (long, none)
    (options.find? fun o => o.name == String.ofList name).map fun o => (o, value)
  | '-' :: c :: rest =>
    (options.find? fun o => o.short == some c).map fun o => (o, attachedValue? rest)
  | _ => none

/-- Whether an argument can be a value behind an option. -/
def isValue (argument : String) : Bool :=
  argument == "-" || !argument.startsWith "-"

/-- Adds an option to those that have been given. -/
def give? (option : CommandOption) (value : String) (given : GivenOptions) :
    Option GivenOptions :=
  if option.kind != .values && (Keyed.keys given).contains option.name then none
  else some (given ++ [(option.name, value)])

/-- Reads options. `waiting` is the one whose value comes next. -/
def readAll (options : List CommandOption) : (waiting : Option CommandOption) → GivenOptions →
    List String → Option GivenOptions
  | some _, _, [] => none
  | some option, given, value :: rest =>
    if isValue value then
      match option.give? value given with
      | some given => readAll options none given rest
      | none => none
    else none
  | none, given, [] => some given
  | none, given, argument :: rest =>
    if argument = "--" then (if rest.isEmpty then some given else none)
    else match named? options argument with
      | none => none
      | some (option, attached) =>
        match option.kind, attached with
        | .flag, some _ => none
        | .flag, none =>
          match option.give? "" given with
          | some given => readAll options none given rest
          | none => none
        | _, some value =>
          match option.give? value given with
          | some given => readAll options none given rest
          | none => none
        | _, none => readAll options (some option) given rest

end CommandOption

/-- Where the configuration and the inputs are, if not in their usual places. -/
structure InputOptions where
  config : Option String
  schemaDir : Option String
  deriving DecidableEq, Repr

/-- How an inspection is printed. -/
inductive InspectionFormat where
  | yaml
  | json
  deriving DecidableEq, Repr

/-- A command. -/
inductive Command where
  | generate (inputs : InputOptions) (outDir : Option String) (only : List Generator)
      (unformatted : Bool)
  | validate (inputs : InputOptions)
  | inspect (inputs : InputOptions) (target : Generator) (format : InspectionFormat)
  | init (force : Bool)
  | version
  deriving DecidableEq, Repr

namespace Command

/-- The options that say where the inputs are. -/
def inputOptions : List CommandOption :=
  [⟨"config", some 'c', .value⟩, ⟨"schema-dir", some 's', .value⟩]

/-- The path under an option, which is not empty. -/
def path? (name : String) (given : GivenOptions) : Option (Option String) :=
  match Keyed.get? name given with
  | none => some none
  | some path => if path.isEmpty then none else some (some path)

/-- Where the inputs are. -/
def inputs? (given : GivenOptions) : Option InputOptions := do
  let config ← path? "config" given
  let schemaDir ← path? "schema-dir" given
  some ⟨config, schemaDir⟩

/-- The generators under an option, separated by commas or given one by one. -/
def generators? (name : String) (given : GivenOptions) : Option (List Generator) :=
  let texts := (given.filter fun o => o.1 == name).flatMap fun o => Text.splitString ',' o.2
  texts.mapM Generator.ofWord?

/-- How an inspection is printed: as YAML unless it is said otherwise. -/
def format? (given : GivenOptions) : Option InspectionFormat :=
  match Keyed.get? "format" given with
  | none => some .yaml
  | some "yaml" => some .yaml
  | some "json" => some .json
  | some _ => none

/-- Reads the command that generates. -/
def readGenerate? (arguments : List String) : Option Command := do
  let given ← CommandOption.readAll
    (inputOptions ++ [⟨"out-dir", some 'o', .value⟩, ⟨"only", none, .values⟩,
      ⟨"no-format", none, .flag⟩]) none [] arguments
  let inputs ← inputs? given
  let outDir ← path? "out-dir" given
  let only ← generators? "only" given
  some (.generate inputs outDir only ((Keyed.keys given).contains "no-format"))

/-- Reads the command that validates. -/
def readValidate? (arguments : List String) : Option Command := do
  let given ← CommandOption.readAll inputOptions none [] arguments
  let inputs ← inputs? given
  some (.validate inputs)

/-- Reads the command that inspects. -/
def readInspect? (arguments : List String) : Option Command := do
  let given ← CommandOption.readAll
    (inputOptions ++ [⟨"target", some 't', .value⟩, ⟨"format", none, .value⟩]) none [] arguments
  let inputs ← inputs? given
  let target ← (Keyed.get? "target" given).bind Generator.ofWord?
  let format ← format? given
  some (.inspect inputs target format)

/-- Reads the command that makes a configuration file. -/
def readInit? (arguments : List String) : Option Command := do
  let given ← CommandOption.readAll [⟨"force", none, .flag⟩] none [] arguments
  some (.init ((Keyed.keys given).contains "force"))

/-- The command that arguments are. -/
def ofArguments? : List String → Option Command
  | [] => none
  | name :: rest =>
    match name with
    | "generate" => readGenerate? rest
    | "validate" => readValidate? rest
    | "inspect" => readInspect? rest
    | "init" => readInit? rest
    | "--version" => some .version
    | name => if name.startsWith "-V" then some .version else none

end Command

end TypedClients
