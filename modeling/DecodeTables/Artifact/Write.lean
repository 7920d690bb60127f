import DecodeTables.Artifact.Render
import DecodeTables.Cause
import DecodeTables.Storage.Basic
import DecodeTables.Storage.Path

/-!
# Writing artifacts

Artifacts are written one after the other, and the first failure ends it: what was written before
stays. An artifact is rendered before anything is created for it.
-/

namespace DecodeTables.Artifact

variable {m : Type → Type} [Monad m] [Storage m]

/-- Creates the directory that a path lies in. A path without directory needs none. -/
def makeParent (path : String) : m (Except WriteFailure Unit) := do
  match Storage.parent? path with
  | none | some "" => return .ok ()
  | some directory =>
    if ← Storage.createDirectories directory then return .ok ()
    else return .error (.directory directory)

/-- Renders an artifact and writes it to a path. -/
def write (t : Table) (options : Options) (artifact : Artifact) (path : String) :
    m (Except WriteFailure Unit) := do
  match render t artifact options with
  | .error e => return .error (.unsupported e)
  | .ok source =>
    match ← makeParent path with
    | .error e => return .error e
    | .ok () =>
      if ← Storage.writeText path source.text then return .ok ()
      else return .error (.file path)

/-- Writes artifacts in order, up to the first failure. -/
def writeEach (t : Table) (options : Options) :
    List (Artifact × String) → m (Except WriteFailure Unit)
  | [] => return .ok ()
  | (artifact, path) :: rest => do
    match ← write t options artifact path with
    | .error e => return .error e
    | .ok () => writeEach t options rest

/-- Writes artifacts, of which there must be one at least. -/
def writeAll (t : Table) (options : Options) (outputs : List (Artifact × String)) :
    m (Except WriteFailure Unit) :=
  if outputs.isEmpty then return .error .nothing else writeEach t options outputs

end DecodeTables.Artifact
