import DecodeTables.Immediate

/-!
# Operands

`Operands` are the values read from a word or put into one. A `Rule` says which of them an
instruction has: `Rule.extract` reads them, `Rule.place` puts them back.
-/

namespace DecodeTables

/-- Register indices and an immediate; an operand that an instruction lacks is `none`. -/
structure Operands where
  rs1 : Option Nat := none
  rs2 : Option Nat := none
  rd : Option Nat := none
  imm : Option Int := none
  deriving DecidableEq, Repr

/-- The operand slots of an instruction. -/
structure Rule where
  rs1 : Bool
  rs2 : Bool
  rd : Bool
  immediate : Immediate
  deriving DecidableEq, Repr

namespace Rule

/-- The rule of a set of fields, unless they have no consistent immediate. A `zimm` is read through
the slot of `rs1`. -/
def ofFields? (fields : List Field) : Option Rule :=
  (Immediate.ofFields? fields).map fun immediate =>
    { rs1 := fields.contains .rs1 || fields.contains .zimm
      rs2 := fields.contains .rs2
      rd := fields.contains .rd
      immediate }

/-- Reads the operands of a word. -/
def extract (rule : Rule) (w : Word) : Operands where
  rs1 := if rule.rs1 then some (w.extractLsb' 15 5).toNat else none
  rs2 := if rule.rs2 then some (w.extractLsb' 20 5).toNat else none
  rd := if rule.rd then some (w.extractLsb' 7 5).toNat else none
  imm := rule.immediate.decode? w

/-- The low five bits of a register index, moved up to its slot; an absent or unused one is zero. -/
def placeRegister (used : Bool) (index : Option Nat) (shift : Nat) : Word :=
  match used, index with
  | true, some r => (BitVec.ofNat 5 r).setWidth 32 <<< shift
  | _, _ => 0

/-- The word that holds the operands in their slots and is clear elsewhere. Operands without a slot
are left out. -/
def place (rule : Rule) (operands : Operands) : Word :=
  placeRegister rule.rs1 operands.rs1 15 ||| placeRegister rule.rs2 operands.rs2 20 |||
    placeRegister rule.rd operands.rd 7 |||
    match operands.imm with
    | some value => rule.immediate.encode value
    | none => 0

end Rule

end DecodeTables
