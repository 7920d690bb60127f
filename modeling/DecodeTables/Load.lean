import DecodeTables.Cause
import DecodeTables.Description.Json
import DecodeTables.Description.Yaml
import DecodeTables.Storage.Basic
import DecodeTables.Storage.Path
import DecodeTables.Text.Quoted

/-!
# Loading files

The name of a file tells the format of the description in it. A file is read before its name is looked
at.
-/

namespace DecodeTables

variable {m : Type → Type} [Monad m] [Storage m]

/-- Reads a description in the format that its path tells. -/
def Description.ofText (path text : String) : Except DescriptionError Description :=
  match Storage.extension? path with
  | some "json" => ofJson text
  | some "yaml" | some "yml" => ofYaml text
  | _ => .error (.unknownFormat (Text.quote path))

/-- Reads the description in a file. -/
def Description.load (path : String) : m (Except DescriptionError Description) := do
  match ← Storage.readText path with
  | some text => return ofText path text
  | none => return .error .unreadable

/-- Makes the table of the description in a file. -/
def Table.load (order : TrialOrder) (path : String) : m (Except LoadFailure Table) := do
  if !(← Storage.isFile path) then return .error (.notFile path)
  match ← Description.load path with
  | .error e => return .error (.description path e)
  | .ok description =>
    match Table.ofDescription order description with
    | .error e => return .error (.table path e)
    | .ok t => return .ok t

end DecodeTables
