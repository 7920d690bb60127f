import DecodeTables.Table

/-!
# Artifacts

The sources that are made from a table: the identifiers, the decoder and the table of executors, each
for a target language. An artifact is a list of lines; a line may be indented by levels of four
spaces.
-/

namespace DecodeTables

/-- The language of an artifact. -/
inductive Target where
  | cpp
  | rust
  deriving DecidableEq, Repr

namespace Target

def all : List Target := [cpp, rust]

def name : Target → String
  | cpp => "cpp"
  | rust => "rust"

def ofName? (text : String) : Option Target := all.find? fun t => t.name == text

end Target

/-- How a decoder in C++ finds the instruction of a word. -/
inductive Shape where
  /-- By a `switch` over opcodes, then over masks and literal bits. -/
  | switch
  /-- By an array of masks, then by a map from masks and literal bits. -/
  | flat
  deriving DecidableEq, Repr

namespace Shape

def all : List Shape := [switch, flat]

def name : Shape → String
  | switch => "switch"
  | flat => "flat"

def ofName? (text : String) : Option Shape := all.find? fun s => s.name == text

end Shape

/-- What an artifact holds. -/
inductive Artifact where
  | identifiers
  | decoder
  | executor
  deriving DecidableEq, Repr

namespace Artifact

def all : List Artifact := [identifiers, decoder, executor]

def name : Artifact → String
  | identifiers => "identifiers"
  | decoder => "decoder"
  | executor => "executor"

def ofName? (text : String) : Option Artifact := all.find? fun a => a.name == text

/-- What an artifact is made for. -/
structure Options where
  target : Target := .cpp
  shape : Shape := .switch
  /-- The namespace around sources in C++. -/
  space : String := "yarvs"
  deriving DecidableEq, Repr

/-- A source with the file name that is usual for it. -/
structure Source where
  name : String
  text : String
  deriving DecidableEq, Repr

/-- There is no such artifact for the target. -/
structure Unsupported where
  target : Target
  artifact : Artifact
  deriving DecidableEq, Repr

def Unsupported.message (e : Unsupported) : String :=
  s!"the {e.target.name} target has no {e.artifact.name} artifact"

/-! ## Lines -/

/-- A line behind `level` levels of indentation. -/
def indent (level : Nat) (line : String) : String :=
  String.ofList (List.replicate (4 * level) ' ') ++ line

/-- Lines of which each but the last has a comma behind it. -/
def separated : List String → List String
  | [] => []
  | [line] => [line]
  | line :: rest => (line ++ ",") :: separated rest

/-- Lists between commas stand on lines of this many items. -/
def rowLength : Nat := 8

/-- Cuts a list into rows of `rowLength` items; the last may be shorter. -/
def rows {α : Type} (items : List α) : List (List α) :=
  (List.range ((items.length + rowLength - 1) / rowLength)).map fun row =>
    (items.drop (row * rowLength)).take rowLength

/-- Items with commas between them. -/
def commas (items : List String) : String := ", ".intercalate items

/-- The text of lines, each with a line feed behind it. -/
def unlines (lines : List String) : String := String.join (lines.map (· ++ "\n"))

/-! ## Instructions in a decoder -/

/-- An instruction as decoders in every language hold it. A register slot is named by its lowest
bit. -/
structure Arm where
  mask : Word
  value : Word
  symbol : String
  rs1 : Option Nat
  rs2 : Option Nat
  rd : Option Nat
  immediate : Immediate
  deriving DecidableEq, Repr

def Arm.ofMember (instruction : Instruction) (rule : Rule) : Arm where
  mask := instruction.mask
  value := instruction.value
  symbol := DecodeTables.symbol instruction.id
  rs1 := if rule.rs1 then some 15 else none
  rs2 := if rule.rs2 then some 20 else none
  rd := if rule.rd then some 7 else none
  immediate := rule.immediate

end Artifact

/-- The instructions of a table as decoders hold them, by ordinal. -/
def Table.arms (t : Table) : List Artifact.Arm :=
  t.members.map fun (instruction, rule) => Artifact.Arm.ofMember instruction rule

end DecodeTables
