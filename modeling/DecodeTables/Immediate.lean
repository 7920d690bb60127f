import DecodeTables.Field

/-!
# Immediates

The bit layouts of an immediate operand: which word bits it is read from (`Immediate.bits`), the
value they hold (`Immediate.decode?`), where a value goes (`Immediate.encode`) and which values
survive the way there and back (`Immediate.fits`).
-/

namespace DecodeTables

/-- How an instruction holds its immediate. -/
inductive Immediate where
  | i | s | b | u | j | fence
  /-- The instruction has no immediate. -/
  | absent
  deriving DecidableEq, Repr

namespace Immediate

/-- Every layout, in declaration order. -/
def all : List Immediate := [i, s, b, u, j, fence, absent]

def name : Immediate → String
  | i => "I" | s => "S" | b => "B" | u => "U" | j => "J" | fence => "Fence" | absent => "None"

/-- The layout that a field is a part of, if it is a part of an immediate at all. -/
def ofField? : Field → Option Immediate
  | .imm12 | .csr | .shamt | .shamtd | .shamtw => some i
  | .imm12hi | .imm12lo => some s
  | .bimm12hi | .bimm12lo => some b
  | .imm20 => some u
  | .jimm20 => some j
  | .fm | .pred | .succ => some fence
  | .rd | .rs1 | .rs2 | .rs3 | .rm | .zimm | .aq | .rl => none

/-- The fields that a layout made of several parts needs all of. -/
def parts : Immediate → List Field
  | s => [.imm12hi, .imm12lo]
  | b => [.bimm12hi, .bimm12lo]
  | fence => [.fm, .pred, .succ]
  | i | u | j | absent => []

/-- The layout of a set of fields. There is none if the fields are parts of several layouts, or if
a part is missing. -/
def ofFields? (fields : List Field) : Option Immediate :=
  match (fields.filterMap ofField?).eraseDups with
  | [] => some absent
  | [layout] => if layout.parts.all fields.contains then some layout else none
  | _ => none

/-- The value held by a word. Layouts `u` and `fence` are not signed; the others extend their
highest bit, `b` and `j` after a zero at the lowest. -/
def decode? (layout : Immediate) (w : Word) : Option Int :=
  match layout with
  | i => some (w.extractLsb' 20 12).toInt
  | s => some (w.extractLsb' 25 7 ++ w.extractLsb' 7 5).toInt
  | b => some (w.extractLsb' 31 1 ++ w.extractLsb' 7 1 ++ w.extractLsb' 25 6 ++
      w.extractLsb' 8 4 ++ 0#1).toInt
  | u => some (w.extractLsb' 12 20 ++ 0#12).toNat
  | j => some (w.extractLsb' 31 1 ++ w.extractLsb' 12 8 ++ w.extractLsb' 20 1 ++
      w.extractLsb' 21 10 ++ 0#1).toInt
  | fence => some (w.extractLsb' 20 12).toNat
  | absent => none

/-- The word whose immediate bits hold the low bits of a value, and whose other bits are clear. -/
def encode (layout : Immediate) (value : Int) : Word :=
  let v := BitVec.ofInt 32 value
  match layout with
  | i => v.extractLsb' 0 12 ++ 0#20
  | s => v.extractLsb' 5 7 ++ 0#13 ++ v.extractLsb' 0 5 ++ 0#7
  | b => v.extractLsb' 12 1 ++ v.extractLsb' 5 6 ++ 0#13 ++ v.extractLsb' 1 4 ++
      v.extractLsb' 11 1 ++ 0#7
  | u => v.extractLsb' 12 20 ++ 0#12
  | j => v.extractLsb' 20 1 ++ v.extractLsb' 1 10 ++ v.extractLsb' 11 1 ++ v.extractLsb' 12 8 ++
      0#12
  | fence => v.extractLsb' 0 12 ++ 0#20
  | absent => 0

/-- Whether decoding gives back the value that was encoded. -/
def fits (layout : Immediate) (value : Int) : Bool :=
  match layout with
  | i | s => -2048 ≤ value && value ≤ 2047
  | b => value % 2 == 0 && -4096 ≤ value && value ≤ 4094
  | u => value % 4096 == 0 && 0 ≤ value && value ≤ 0xfffff000
  | j => value % 2 == 0 && -1048576 ≤ value && value < 1048576
  | fence => 0 ≤ value && value ≤ 0xfff
  | absent => false

/-- The word bits that the immediate is read from. -/
def bits : Immediate → Word
  | i | fence => 0xfff00000
  | s | b => 0xfe000f80
  | u | j => 0xfffff000
  | absent => 0

@[simp] theorem mem_all (layout : Immediate) : layout ∈ all := by cases layout <;> decide

end Immediate

end DecodeTables
