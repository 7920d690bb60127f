import DecodeTables.Decode

/-!
# Checking a table against itself

`Table.selfCheck` encodes every instruction twice, with all operand bits clear and with all of them
set, and decodes both words. Each must come back as the same instruction with the operands that were
put in.
-/

namespace DecodeTables

open Text

/-- What a table that passes was checked with. -/
structure SelfCheck where
  instructions : Nat
  words : Nat
  deriving DecidableEq, Repr

/-- The first thing that goes wrong. -/
inductive SelfCheckFailure where
  | notEncoded (name : String) (operands : Operands)
  | notDecoded (name : String) (raw : Word) (cause : Undecoded)
  | decodedAs (name : String) (raw : Word) (other : String)
  | operandsDiffer (name : String) (raw : Word) (placed found : Operands)
  deriving DecidableEq, Repr

namespace SelfCheckFailure

/-- An operand as it is shown in a message. -/
def showOperand {α : Type} [ToString α] : Option α → String
  | some value => s!"Some({value})"
  | none => "None"

/-- Operands as they are shown in a message. -/
def showOperands (operands : Operands) : String :=
  s!"Operands \x7b rs1: {showOperand operands.rs1}, rs2: {showOperand operands.rs2}, rd: {showOperand operands.rd}, imm: {showOperand operands.imm} \x7d"

def message : SelfCheckFailure → String
  | notEncoded name operands => s!"`{name}` cannot encode {showOperands operands}"
  | notDecoded name raw _ => s!"`{name}` encoded as {Hex.padded raw}"
  | decodedAs name raw other => s!"{Hex.padded raw} encodes `{name}` but decodes as `{other}`"
  | operandsDiffer name raw placed found =>
      s!"{Hex.padded raw} (`{name}`) placed {showOperands placed} but decoded {showOperands found}"

end SelfCheckFailure

namespace Rule

/-- The operands with every bit clear, and those with every bit set. -/
def extremes (rule : Rule) : List Operands :=
  [{ rs1 := some 0, rs2 := some 0, rd := some 0, imm := rule.immediate.decode? 0 },
    { rs1 := some 31, rs2 := some 31, rd := some 31,
      imm := rule.immediate.decode? (BitVec.allOnes 32) }]

/-- Whether the operands read from a word are those placed in it, as far as the rule reads them.
Immediates are compared in the bits outside `mask`, since the others are literal. -/
def agree (rule : Rule) (mask : Word) (placed found : Operands) : Bool :=
  let free := rule.immediate.bits &&& ~~~mask
  found.rs1 == placed.rs1.filter (fun _ => rule.rs1) &&
    found.rs2 == placed.rs2.filter (fun _ => rule.rs2) &&
    found.rd == placed.rd.filter (fun _ => rule.rd) &&
    match placed.imm, found.imm with
    | none, none => true
    | some a, some b => rule.immediate.encode a &&& free == rule.immediate.encode b &&& free
    | _, _ => false

end Rule

namespace Table

variable (t : Table)

/-- Encodes an instruction with some operands and decodes the word. -/
def checkWord (ordinal : Nat) (instruction : Instruction) (rule : Rule) (operands : Operands) :
    Except SelfCheckFailure Unit :=
  let name := t.name ordinal
  match instruction.encode? operands with
  | none => .error (.notEncoded name operands)
  | some raw =>
    match t.decode raw with
    | .error cause => .error (.notDecoded name raw cause)
    | .ok decoded =>
      if decoded.ordinal ≠ ordinal then .error (.decodedAs name raw (t.name decoded.ordinal))
      else if !rule.agree instruction.mask operands decoded.operands then
        .error (.operandsDiffer name raw operands decoded.operands)
      else .ok ()

/-- The words that a table is checked with, by ordinal. -/
def checks : List (Nat × Instruction × Rule × Operands) :=
  t.members.zipIdx.flatMap fun ((instruction, rule), ordinal) =>
    rule.extremes.map fun operands => (ordinal, instruction, rule, operands)

def selfCheck : Except SelfCheckFailure SelfCheck := do
  t.checks.forM fun (ordinal, instruction, rule, operands) =>
    t.checkWord ordinal instruction rule operands
  return { instructions := t.numbering.size, words := t.checks.length }

end Table

end DecodeTables
