import DecodeTables.Artifact.Basic
import DecodeTables.SelfCheck

/-!
# Causes of failure

When an operation fails for another failure, both are shown: a failure is a list of causes, the
outermost first. Each kind of failure says what its causes are.
-/

namespace DecodeTables

/-- One of the causes of a failure. -/
inductive Cause where
  | note (text : String)
  | description (e : DescriptionError)
  | defect (e : Defect)
  | undecoded (e : Undecoded)
  | unsupported (e : Artifact.Unsupported)
  /-- A file or directory could not be read or written. -/
  | storage
  deriving DecidableEq, Repr

def Cause.message : Cause → String
  | note text => text
  | description e => e.message
  | defect e => e.message
  | undecoded e => e.message
  | unsupported e => e.message
  | storage => "the storage refused the request"

def SelfCheckFailure.causes (e : SelfCheckFailure) : List Cause :=
  .note e.message ::
    match e with
    | .notDecoded _ _ cause => [.undecoded cause]
    | _ => []

/-- A text that is no word. -/
structure NotAWord where
  text : String
  deriving DecidableEq, Repr

def NotAWord.causes (e : NotAWord) : List Cause :=
  [.note s!"`{e.text}` is not a 32-bit hexadecimal instruction word"]

/-- Reads a word in hexadecimal. -/
def Word.ofText (text : String) : Except NotAWord Word :=
  match Text.Hex.parse? text with
  | some w => .ok w
  | none => .error ⟨text⟩

/-- Why a file gives no table. -/
inductive LoadFailure where
  /-- There is no regular file at the path. -/
  | notFile (path : String)
  | description (path : String) (e : DescriptionError)
  | table (path : String) (e : Defect)
  deriving DecidableEq, Repr

def LoadFailure.causes : LoadFailure → List Cause
  | notFile path => [.note s!"\"{path}\" does not exist or is not a file"]
  | description path e => [.note s!"failed to load {path}", .description e]
  | table path e => [.note s!"failed to compile {path}", .defect e]

/-- Why artifacts are not written, or not all of them. -/
inductive WriteFailure where
  /-- No artifact was asked for. -/
  | nothing
  | unsupported (e : Artifact.Unsupported)
  | directory (path : String)
  | file (path : String)
  deriving DecidableEq, Repr

def WriteFailure.causes : WriteFailure → List Cause
  | nothing => [.note "at least one of --enum, --decoder or --exec must be specified"]
  | unsupported e => [.unsupported e]
  | directory path => [.note s!"failed to create {path}", .storage]
  | file path => [.note s!"failed to write {path}", .storage]

end DecodeTables
