import DecodeTables.Word

/-!
# Variable fields

The named operand fields of an instruction word. Each field has a fixed bit range, and no field
reaches into the opcode.
-/

namespace DecodeTables

/-- A named operand field. -/
inductive Field where
  | rd | rs1 | rs2 | rs3 | rm
  | imm12 | imm12hi | imm12lo | bimm12hi | bimm12lo | imm20 | jimm20
  | shamt | shamtd | shamtw
  | csr | zimm | fm | pred | succ | aq | rl
  deriving DecidableEq, Repr

namespace Field

/-- Every field, in declaration order. -/
def all : List Field :=
  [rd, rs1, rs2, rs3, rm, imm12, imm12hi, imm12lo, bimm12hi, bimm12lo, imm20, jimm20,
    shamt, shamtd, shamtw, csr, zimm, fm, pred, succ, aq, rl]

/-- The field's name in a description. -/
def name : Field → String
  | rd => "rd" | rs1 => "rs1" | rs2 => "rs2" | rs3 => "rs3" | rm => "rm"
  | imm12 => "imm12" | imm12hi => "imm12hi" | imm12lo => "imm12lo"
  | bimm12hi => "bimm12hi" | bimm12lo => "bimm12lo" | imm20 => "imm20" | jimm20 => "jimm20"
  | shamt => "shamt" | shamtd => "shamtd" | shamtw => "shamtw"
  | csr => "csr" | zimm => "zimm" | fm => "fm" | pred => "pred" | succ => "succ"
  | aq => "aq" | rl => "rl"

/-- The field of a name; names are matched exactly. -/
def ofName? (text : String) : Option Field := all.find? fun f => f.name == text

/-- The highest and the lowest bit of the field. -/
def range : Field → Nat × Nat
  | rd => (11, 7)
  | rs1 => (19, 15)
  | rs2 => (24, 20)
  | rs3 => (31, 27)
  | rm => (14, 12)
  | imm12 => (31, 20)
  | imm12hi => (31, 25)
  | imm12lo => (11, 7)
  | bimm12hi => (31, 25)
  | bimm12lo => (11, 7)
  | imm20 => (31, 12)
  | jimm20 => (31, 12)
  | shamt => (24, 20)
  | shamtd => (25, 20)
  | shamtw => (24, 20)
  | csr => (31, 20)
  | zimm => (19, 15)
  | fm => (31, 28)
  | pred => (27, 24)
  | succ => (23, 20)
  | aq => (26, 26)
  | rl => (25, 25)

/-- Ones over the bits of the field. -/
def mask (f : Field) : Word := Word.span f.range.1 f.range.2

/-- A list of fields as a set: declaration order, each field once. -/
def normalize (fields : List Field) : List Field := all.filter fun f => fields.contains f

/-- Ones over the bits of some field of the list. -/
def union (fields : List Field) : Word := fields.foldl (fun bits f => bits ||| f.mask) 0

@[simp] theorem mem_all (f : Field) : f ∈ all := by cases f <;> decide

@[simp] theorem mem_normalize {f : Field} {fields : List Field} : f ∈ normalize fields ↔ f ∈ fields := by
  simp [normalize, mem_all]

end Field

end DecodeTables
