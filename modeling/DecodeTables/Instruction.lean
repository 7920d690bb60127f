import DecodeTables.Defect
import DecodeTables.Description
import DecodeTables.Operands

/-!
# Instructions

An `Instruction` is an identifier with a sound encoding: its mask and literal bits are those of the
encoding, its opcode is literal, and its fields cover exactly the bits that are not. The type holds
the proofs; `Instruction.ofEncoding` and `Instruction.ofEntry` find the first thing that is wrong.
-/

namespace DecodeTables

structure Instruction where
  id : String
  encoding : String
  /-- Ones over the literal bits. -/
  mask : Word
  /-- The literal bits. -/
  value : Word
  /-- The variable fields in declaration order, each once. -/
  fields : List Field
  extensions : List String
  id_ne : id ≠ ""
  read_encoding : Encoding.read encoding = .ok (mask, value)
  opcode_literal : mask &&& Word.opcodeMask = Word.opcodeMask
  fields_normal : Field.normalize fields = fields
  union_fields : Field.union fields = ~~~mask

namespace Instruction

/-- An instruction from its parts. The identifier is looked at first, then the encoding, the mask,
the literal bits and the fields. -/
def ofEncoding (id encoding : String) (mask value : Word) (fields : List Field) :
    Except Defect Instruction :=
  let malformed reason : Except Defect Instruction := .error (.malformed id reason)
  if hid : id = "" then malformed .emptyIdentifier
  else match hread : Encoding.read encoding with
    | .error fault => malformed (.encoding fault)
    | .ok (literal, bits) =>
      if hop : literal &&& Word.opcodeMask ≠ Word.opcodeMask then malformed .opcodeVariable
      else if hmask : mask ≠ literal then malformed (.maskDisagrees mask literal)
      else if hvalue : value ≠ bits then malformed (.matchDisagrees value bits)
      else
        let set := Field.normalize fields
        let declared := Field.union set
        if hdisjoint : declared &&& literal ≠ 0 then malformed (.overlap (declared &&& literal))
        else if hcover : declared ||| literal ≠ BitVec.allOnes 32 then
          malformed (.uncovered (~~~(declared ||| literal)))
        else .ok {
          id, encoding, mask, value
          fields := set
          extensions := []
          id_ne := hid
          read_encoding := by
            simp only [ne_eq, Decidable.not_not] at hmask hvalue
            rw [hread, hmask, hvalue]
          opcode_literal := by
            simp only [ne_eq, Decidable.not_not] at hop hmask
            rw [hmask, hop]
          fields_normal := by
            simp only [set, Field.normalize]
            refine List.filter_congr fun f _ => ?_
            rw [Bool.eq_iff_iff, List.contains_iff_mem, List.contains_iff_mem]
            exact Field.mem_normalize
          union_fields := by
            simp only [ne_eq, Decidable.not_not] at hmask hdisjoint hcover
            rw [hmask]
            exact Word.eq_not_of_split hdisjoint hcover }

/-- An instruction from an entry of a description. Its mask, its literal bits and the names of its
fields are read first, in this order. -/
def ofEntry (id : String) (entry : Entry) : Except Defect Instruction := do
  let some mask := Text.Hex.parse? entry.mask
    | .error (.malformed id (.badMask entry.mask))
  let some value := Text.Hex.parse? entry.value
    | .error (.malformed id (.badMatch entry.value))
  let some fields := entry.variableFields.mapM Field.ofName?
    | .error (.unsupportedFields id entry.variableFields)
  let instruction ← ofEncoding id entry.encoding mask value fields
  return { instruction with extensions := entry.extensions }

variable (instruction : Instruction)

def opcode : Nat := instruction.value.opcode

/-- Whether a word carries the literal bits. -/
def isMatch (w : Word) : Bool := w &&& instruction.mask == instruction.value

/-- The rule of the fields, unless they have no consistent immediate. -/
def rule : Except Defect Rule :=
  match Rule.ofFields? instruction.fields with
  | some rule => .ok rule
  | none => .error (.unsupportedFields instruction.id (instruction.fields.map Field.name))

/-- The word with the literal bits of the instruction and the given operands elsewhere. Every
register must exist, used or not, and the immediate must fit. -/
def encode? (operands : Operands) : Option Word :=
  match Rule.ofFields? instruction.fields with
  | none => none
  | some rule =>
    if [operands.rs1, operands.rs2, operands.rd].all (·.all (· < registerCount)) &&
        operands.imm.all rule.immediate.fits then
      some (instruction.value ||| rule.place operands &&& ~~~instruction.mask)
    else none

end Instruction

end DecodeTables
