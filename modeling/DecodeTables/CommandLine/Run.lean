import DecodeTables.Artifact.Write
import DecodeTables.CommandLine.Arguments
import DecodeTables.Json.Printer
import DecodeTables.Load
import DecodeTables.Report
import DecodeTables.Rv64

/-!
# Running commands

`run` carries out a command line. The outcome is the text for the standard output, the causes of a
failure and the exit code: 0 for success, 1 for a failure and 2 for a refused command line.
-/

namespace DecodeTables.CommandLine

open Text

/-- How a run ends. -/
structure Outcome where
  exit : Nat
  output : String := ""
  complaint : String := ""
  deriving DecidableEq, Repr

namespace Outcome

def success (output : String) : Outcome := { exit := 0, output }

/-- The end of a run that fails after some output. -/
def failure (output : String) (causes : List Cause) : Outcome where
  exit := 1
  output := output
  complaint := "Error: " ++ ": ".intercalate (causes.map Cause.message) ++ "\n"

def refusal (e : UsageError) : Outcome where
  exit := 2
  complaint := "error: " ++ e.message ++ "\n"

end Outcome

/-- How the program is used. -/
def usage : String :=
  "Compiles RISC-V instruction descriptions into decoder tables\n\n" ++
  "Usage: [-v] COMMAND\n\n" ++
  "  generate DESCRIPTION [--enum PATH] [--decoder PATH] [--exec PATH] [--trial-order ORDER]\n" ++
  "           [--target cpp|rust] [--dispatch switch|flat] [--namespace NAME]\n" ++
  "  decode DESCRIPTION WORD... [--trial-order ORDER]\n" ++
  "  inspect DESCRIPTION [--pretty] [--trial-order ORDER]\n" ++
  "  selftest [DESCRIPTION]\n"

def versionText : String := "0.1.0\n"

/-- The line for a word that is decoded. -/
def wordLine (t : Table) (raw : Word) : String :=
  Hex.padded raw ++ ": " ++
    (match t.decode raw with
    | .ok decoded => t.disassemble decoded
    | .error e => e.message) ++ "\n"

/-- Decodes words up to the first text that is none. Gives the lines, and how many words are no
instruction. -/
def decodeWords (t : Table) : List String → String × Except NotAWord Nat
  | [] => ("", .ok 0)
  | text :: rest =>
    match Word.ofText text with
    | .error e => ("", .error e)
    | .ok raw =>
      let (lines, failures) := decodeWords t rest
      let failed := match t.decode raw with
        | .ok _ => 0
        | .error _ => 1
      (wordLine t raw ++ lines, failures.map (· + failed))

def decodeOutcome (t : Table) (words : List String) : Outcome :=
  match decodeWords t words with
  | (output, .error e) => .failure output e.causes
  | (output, .ok 0) => .success output
  | (output, .ok n) =>
      .failure output [.note s!"{n} of {words.length} words did not decode"]

def selfCheckOutcome (t : Table) : Outcome :=
  match t.selfCheck with
  | .ok _ => .success ""
  | .error e => .failure "" e.causes

/-- Checks the table of the built-in description. -/
def builtinOutcome : Outcome :=
  match Description.rv64 with
  | .error e => .failure "" [.note "built-in description is invalid", .description e]
  | .ok description =>
    match Table.ofDescription .specificity description with
    | .error e => .failure "" [.note "built-in description does not compile", .defect e]
    | .ok t => selfCheckOutcome t

variable {m : Type → Type} [Monad m] [Storage m]

/-- Goes on with the table of the description in a file. -/
def withTable (order : TrialOrder) (path : String) (f : Table → m Outcome) : m Outcome := do
  match ← Table.load order path with
  | .error e => return .failure "" e.causes
  | .ok t => f t

def runCommand : Command → m Outcome
  | .generate description order outputs options =>
    withTable order description fun t => do
      match ← Artifact.writeAll t options outputs with
      | .ok () => return .success ""
      | .error e => return .failure "" e.causes
  | .decode description order words =>
    withTable order description fun t => return decodeOutcome t words
  | .inspect description order pretty =>
    withTable order description fun t =>
      return .success ((if pretty then Json.pretty t.report else Json.compact t.report) ++ "\n")
  | .selftest (some description) =>
    withTable .specificity description fun t => return selfCheckOutcome t
  | .selftest none => return builtinOutcome
  | .help => return .success usage
  | .version => return .success versionText

/-- Carries out a command line, without the name of the program. -/
def run (arguments : List String) : m Outcome :=
  match parse arguments with
  | .ok command => runCommand command
  | .error e => return .refusal e

end DecodeTables.CommandLine
