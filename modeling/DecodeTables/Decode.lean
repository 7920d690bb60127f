import DecodeTables.Table

/-!
# Decoding words

`Table.decode` takes a word to its instruction and operands. It looks up what the plan does with the
opcode, and probes the word under each mask in turn: the literal bits that an instruction with that
mask would have are the masked word.
-/

namespace DecodeTables

/-- A word read as an instruction. -/
structure Decoded where
  raw : Word
  ordinal : Nat
  operands : Operands
  deriving DecidableEq, Repr

/-- A word that was not read, and the opcode that it was looked up under. -/
structure Unread where
  raw : Word
  opcode : Nat
  deriving DecidableEq, Repr

/-- Why a word is no instruction of a table. -/
inductive Undecoded where
  /-- No instruction has the opcode of the word. -/
  | unknownOpcode (word : Unread)
  /-- Instructions have the opcode of the word, but none has its literal bits. -/
  | unknownInstruction (word : Unread)
  deriving DecidableEq, Repr

namespace Undecoded

open Text

def message : Undecoded → String
  | unknownOpcode word =>
      s!"unknown opcode {Hex.short word.opcode} of instruction {Hex.padded word.raw}"
  | unknownInstruction word =>
      s!"unknown instruction {Hex.padded word.raw} (opcode {Hex.short word.opcode})"

end Undecoded

namespace ProbeTable

/-- Reads a word as the instruction with the given mask whose literal bits it carries. -/
def probe (t : ProbeTable) (raw mask : Word) : Option Decoded :=
  (t.find? mask (raw &&& mask)).map fun p =>
    { raw, ordinal := p.ordinal, operands := p.rule.extract raw }

end ProbeTable

namespace Table

variable (t : Table)

def decode (raw : Word) : Except Undecoded Decoded :=
  let opcode := raw.opcode
  let found : Option Decoded → Except Undecoded Decoded
    | some decoded => .ok decoded
    | none => .error (.unknownInstruction { raw, opcode })
  match t.plan.dispatch opcode with
  | .unused => .error (.unknownOpcode { raw, opcode })
  | .single mask => found (t.probes.probe raw mask)
  | .trials masks => found (masks.findSome? (t.probes.probe raw))

/-- The text of a register operand, if there is one. -/
def registerText (slot : String) : Option Nat → String
  | some index => s!" {slot}=x{index}"
  | none => ""

/-- The text of an immediate operand, if there is one. -/
def immediateText : Option Int → String
  | some value => s!" imm={value}"
  | none => ""

/-- The identifier and the operands, as in `addi rd=x1 rs1=x1 imm=1`. -/
def disassemble (decoded : Decoded) : String :=
  t.name decoded.ordinal ++ registerText "rd" decoded.operands.rd ++
    registerText "rs1" decoded.operands.rs1 ++ registerText "rs2" decoded.operands.rs2 ++
    immediateText decoded.operands.imm

end Table

end DecodeTables
