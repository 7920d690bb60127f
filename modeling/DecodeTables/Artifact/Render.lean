import DecodeTables.Artifact.Executor
import DecodeTables.Artifact.Lambda
import DecodeTables.Artifact.Lookup

/-!
# Rendering artifacts

`Artifact.render` writes an artifact of a table as a source. There are no executors in Rust.
-/

namespace DecodeTables.Artifact

/-- The lines of a decoder in C++. -/
def cppDecoderLines (t : Table) (options : Options) : List String :=
  match options.shape with
  | .switch => (SwitchDecoder.ofTable t).lines options.space
  | .flat => (FlatDecoder.ofTable t).lines options.space

def render (t : Table) (artifact : Artifact) (options : Options) : Except Unsupported Source :=
  match options.target, artifact with
  | .cpp, .identifiers =>
      .ok ⟨"identifiers.hpp", unlines ((Items.ofTable t).cppLines options.space)⟩
  | .cpp, .decoder => .ok ⟨"decoder.cpp", unlines (cppDecoderLines t options)⟩
  | .cpp, .executor =>
      .ok ⟨"executor_table.hpp", unlines ((Callbacks.ofTable t).lines options.space)⟩
  | .rust, .identifiers => .ok ⟨"identifiers.rs", unlines (Items.ofTable t).rustLines⟩
  | .rust, .decoder => .ok ⟨"decode.rs", unlines (LookupDecoder.ofTable t).lines⟩
  | .rust, .executor => .error ⟨.rust, .executor⟩

end DecodeTables.Artifact
