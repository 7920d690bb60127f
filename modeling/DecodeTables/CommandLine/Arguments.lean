import DecodeTables.Artifact.Basic

/-!
# Command lines

The commands and their options. `Arguments.parse` reads a command line: options may stand anywhere
behind the command, each at most once, and `--` makes all that follows positional. Values are checked
as they are met.
-/

namespace DecodeTables.CommandLine

/-- What a command line asks for. -/
inductive Command where
  /-- Write artifacts, each to a path. -/
  | generate (description : String) (order : TrialOrder) (outputs : List (Artifact × String))
      (options : Artifact.Options)
  | decode (description : String) (order : TrialOrder) (words : List String)
  | inspect (description : String) (order : TrialOrder) (pretty : Bool)
  /-- Check the description, or the built-in one. -/
  | selftest (description : Option String)
  /-- Show how the program is used. -/
  | help
  | version
  deriving DecidableEq, Repr

/-- Why a command line is refused. -/
inductive UsageError where
  | noCommand
  | unknownCommand (name : String)
  | unknownOption (text : String)
  | missingValue (option : String)
  | surplusValue (option : String)
  | invalidValue (option value : String)
  | repeated (option : String)
  | surplusArgument (text : String)
  | missingArgument (name : String)
  | noOutput
  deriving DecidableEq, Repr

def UsageError.message : UsageError → String
  | noCommand => "a command is required: generate, decode, inspect or selftest"
  | unknownCommand name => s!"unrecognized command '{name}'"
  | unknownOption text => s!"unexpected argument '{text}'"
  | missingValue option => s!"a value is required for '{option}'"
  | surplusValue option => s!"no value is expected for '{option}'"
  | invalidValue option value => s!"invalid value '{value}' for '{option}'"
  | repeated option => s!"the argument '{option}' cannot be used multiple times"
  | surplusArgument text => s!"unexpected argument '{text}'"
  | missingArgument name => s!"the argument {name} is required"
  | noOutput => "at least one of --enum, --decoder or --exec is required"

/-- The options and arguments behind a command. -/
structure Arguments where
  order : Option TrialOrder := none
  identifiers : Option String := none
  decoder : Option String := none
  executor : Option String := none
  target : Option Target := none
  shape : Option Shape := none
  space : Option String := none
  pretty : Bool := false
  /-- The arguments that belong to no option, last first. -/
  positional : List String := []

/-- The commands by name. -/
inductive Verb where
  | generate | decode | inspect | selftest
  deriving DecidableEq, Repr

namespace Verb

def all : List Verb := [generate, decode, inspect, selftest]

def name : Verb → String
  | generate => "generate"
  | decode => "decode"
  | inspect => "inspect"
  | selftest => "selftest"

def ofName? (text : String) : Option Verb := all.find? fun v => v.name == text

/-- The options of a command that take a value. -/
def valued : Verb → List String
  | generate =>
      ["--trial-order", "--enum", "--decoder", "--exec", "--target", "--dispatch", "--namespace"]
  | decode | inspect => ["--trial-order"]
  | selftest => []

/-- The options of a command that take none. -/
def flags : Verb → List String
  | inspect => ["--pretty"]
  | generate | decode | selftest => []

/-- How many positional arguments a command takes at most, if there is a limit. -/
def limit? : Verb → Option Nat
  | generate | inspect | selftest => some 1
  | decode => none

end Verb

namespace Arguments

variable (a : Arguments)

/-- Takes the value of an option that has none yet. -/
def once {α : Type} (option value : String) (old : Option α) (read : String → Option α)
    (put : α → Arguments) : Except UsageError Arguments :=
  if old.isSome then .error (.repeated option)
  else match read value with
    | some v => .ok (put v)
    | none => .error (.invalidValue option value)

/-- A path is any text but the empty one. -/
def path? (value : String) : Option String := if value == "" then none else some value

/-- Takes the value of an option. -/
def set (option value : String) : Except UsageError Arguments :=
  match option with
  | "--trial-order" => once option value a.order TrialOrder.ofName? fun v => { a with order := some v }
  | "--enum" => once option value a.identifiers path? fun v => { a with identifiers := some v }
  | "--decoder" => once option value a.decoder path? fun v => { a with decoder := some v }
  | "--exec" => once option value a.executor path? fun v => { a with executor := some v }
  | "--target" => once option value a.target Target.ofName? fun v => { a with target := some v }
  | "--dispatch" => once option value a.shape Shape.ofName? fun v => { a with shape := some v }
  | "--namespace" => once option value a.space some fun v => { a with space := some v }
  | _ => .error (.unknownOption option)

/-- Takes an option without value. -/
def flag (option : String) : Except UsageError Arguments :=
  if a.pretty then .error (.repeated option) else .ok { a with pretty := true }

/-- Takes a positional argument. The first is a path. -/
def push (verb : Verb) (text : String) : Except UsageError Arguments :=
  if verb.limit?.any (· ≤ a.positional.length) then .error (.surplusArgument text)
  else if a.positional.isEmpty && text == "" then .error (.invalidValue "DESCRIPTION" text)
  else .ok { a with positional := text :: a.positional }

/-- What the letters behind a single dash ask for: `v` counts for nothing here, and `h` asks for
help. -/
def letters (text : String) : List Char → Except UsageError Bool
  | [] => .ok false
  | 'v' :: rest => letters text rest
  | 'h' :: _ => .ok true
  | _ => .error (.unknownOption text)

/-- Whether an argument is not an option: it does not start with a dash, or is nothing but one. -/
def isPlain (text : String) : Bool := text == "-" || !text.startsWith "-"

/-- An option and the value that is joined to it by an equals sign. -/
def splitValue (text : String) : String × Option String :=
  match text.toList.span (· ≠ '=') with
  | (_, []) => (text, none)
  | (option, _ :: value) => (String.ofList option, some (String.ofList value))

/-- Takes arguments in order. Gives none if help is asked for first. -/
def readFrom (verb : Verb) (a : Arguments) : List String → Except UsageError (Option Arguments)
  | [] => .ok (some a)
  | "--" :: rest => (rest.foldlM (fun (a : Arguments) text => a.push verb text) a).map some
  | text :: rest =>
    if text.startsWith "--" then
      let (option, joined) := splitValue text
      if option == "--verbose" || option == "--help" then
        if joined.isSome then .error (.surplusValue option)
        else if option == "--help" then .ok none
        else readFrom verb a rest
      else if verb.valued.contains option then
        match joined, rest with
        | some value, rest => do readFrom verb (← a.set option value) rest
        | none, value :: rest =>
          if isPlain value then do readFrom verb (← a.set option value) rest
          else .error (.missingValue option)
        | none, [] => .error (.missingValue option)
      else if verb.flags.contains option then
        if joined.isSome then .error (.surplusValue option)
        else do readFrom verb (← a.flag option) rest
      else .error (.unknownOption text)
    else if isPlain text then do readFrom verb (← a.push verb text) rest
    else do
      if ← letters text (text.toList.drop 1) then return none
      readFrom verb a rest

/-- The artifacts that are asked for, in the order in which they are written. -/
def outputs : List (Artifact × String) :=
  (a.identifiers.map fun path => (Artifact.identifiers, path)).toList ++
    (a.decoder.map fun path => (Artifact.decoder, path)).toList ++
    (a.executor.map fun path => (Artifact.executor, path)).toList

/-- The command of a verb with these arguments. -/
def command (verb : Verb) : Except UsageError Command :=
  let order := a.order.getD .specificity
  match verb, a.positional.reverse with
  | .selftest, positional => .ok (.selftest positional.head?)
  | _, [] => .error (.missingArgument "DESCRIPTION")
  | .generate, description :: _ =>
    if a.outputs.isEmpty then .error .noOutput
    else
      let base : Artifact.Options := {}
      .ok (.generate description order a.outputs {
        target := a.target.getD base.target
        shape := a.shape.getD base.shape
        space := a.space.getD base.space })
  | .decode, [_] => .error (.missingArgument "WORD")
  | .decode, description :: words => .ok (.decode description order words)
  | .inspect, description :: _ => .ok (.inspect description order a.pretty)

end Arguments

/-- Reads the arguments behind the command `help`. -/
def readHelp : List String → Except UsageError Command
  | [] => .ok .help
  | [name] =>
    if name == "help" || (Verb.ofName? name).isSome then .ok .help
    else .error (.unknownCommand name)
  | _ :: name :: _ => .error (.unknownCommand name)

/-- Reads a command line, without the name of the program. -/
def parse : List String → Except UsageError Command
  | [] => .error .noCommand
  | "--verbose" :: rest => parse rest
  | "--help" :: _ => .ok .help
  | "--version" :: _ => .ok .version
  | text :: rest =>
    if text == "help" then readHelp rest
    else if Arguments.isPlain text then
      match Verb.ofName? text with
      | none => .error (.unknownCommand text)
      | some verb => do
        match ← Arguments.readFrom verb {} rest with
        | none => return .help
        | some a => a.command verb
    else if text.startsWith "--" then .error (.unknownOption text)
    else
      match (text.toList.drop 1).dropWhile (· = 'v') with
      | [] => parse rest
      | 'h' :: _ => .ok .help
      | 'V' :: _ => .ok .version
      | _ => .error (.unknownOption text)

end DecodeTables.CommandLine
