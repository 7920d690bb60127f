import DecodeTables.Artifact.Identifiers

/-!
# Tables of executors

The declaration of a function for each instruction, and an array of these functions in the order of
ordinals, to be included into a class in C++.
-/

namespace DecodeTables.Artifact

/-- The functions, by ordinal. -/
structure Callbacks where
  names : List String
  deriving DecidableEq, Repr

namespace Callbacks

/-- The name of the function of an identifier. -/
def callback (name : String) : String :=
  "exec_" ++ String.ofList ((symbol name).toList.map Char.toLower)

def ofTable (t : Table) : Callbacks := ⟨t.numbering.names.map callback⟩

variable (c : Callbacks)

/-- The functions between commas; without any, the line between the braces is empty. -/
def elementLines : List String :=
  if c.names.isEmpty then [""] else separated (c.names.map (indent 2))

def lines (space : String) : List String :=
  Items.cppBanner ++
  ["// Included into the body of " ++ space ++ "::Executor.",
    ""] ++
  c.names.map (fun name =>
    indent 1 ("static bool " ++ name ++ "(Hart &h, const Instruction &instr);")) ++
  ["",
    indent 1
      "static constexpr std::array<callback_type, InstrID::kEndID> kCallbacks_ = \x7b"] ++
  c.elementLines ++
  [indent 1 "\x7d;"]

end Callbacks

end DecodeTables.Artifact
