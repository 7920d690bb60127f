import DecodeTables.Plan
import DecodeTables.ProbeTable

/-!
# Decode tables

A `Table` is all that is derived from a list of instructions: their numbering, rules, dispatch plan
and probe table. It is built in one pass that ends with the first defect. The stages come in a fixed
order: every entry as an instruction, the numbering, the rules, the probe table.
-/

namespace DecodeTables

/-- What is derived from a list of instructions. -/
structure Table where
  instructions : List Instruction
  numbering : Numbering
  /-- The rule of each instruction. -/
  rules : List Rule
  groups : MaskGroups
  plan : Plan
  probes : ProbeTable

namespace Table

def ofInstructions (order : TrialOrder) (instructions : List Instruction) :
    Except Defect Table := do
  let numbering ← Numbering.ofNames (instructions.map Instruction.id)
  let rules ← instructions.mapM Instruction.rule
  let probes ← ProbeTable.build numbering (instructions.zip rules)
  let groups := MaskGroups.ofInstructions instructions
  return { instructions, numbering, rules, groups, plan := Plan.build order groups, probes }

/-- The table of the instructions that entries describe. -/
def ofEntries (order : TrialOrder) (entries : List (String × Entry)) : Except Defect Table := do
  let instructions ← entries.mapM fun e => Instruction.ofEntry e.1 e.2
  ofInstructions order instructions

def ofDescription (order : TrialOrder) (description : Description) : Except Defect Table :=
  ofEntries order description.entries

variable (t : Table)

/-- The instructions with their rules, by ordinal. -/
def members : List (Instruction × Rule) := t.instructions.zip t.rules

/-- The identifier of an ordinal; an ordinal without one has none to show. -/
def name (ordinal : Nat) : String := (t.numbering.name? ordinal).getD ""

/-- The instruction of an identifier. -/
def find? (id : String) : Option Instruction :=
  (t.numbering.ordinal? id).bind fun ordinal => t.instructions[ordinal]?

end Table

end DecodeTables
