import DecodeTables.Operands
import DecodeTables.Proofs.Immediate

/-!
# Slots

The operand slots of a rule as sets of word bits. Slots may share bits: what a rule places is told
bit by bit (`Rule.getLsbD_place`), from the slots that have the bit and the bits that the operands
hold for them (`Rule.operandBit`). Placing what was read from a word gives the word back in all slots
(`Rule.place_extract`), and a slot that shares no bit reads what was placed in it.
-/

namespace DecodeTables

/-- Where a rule reads an operand. -/
inductive Slot where
  | rs1 | rs2 | rd | immediate
  deriving DecidableEq, Repr

theorem Slot.forall_iff {p : Slot → Prop} :
    (∀ slot, p slot) ↔ p .rs1 ∧ p .rs2 ∧ p .rd ∧ p .immediate := by
  constructor
  · exact fun all => ⟨all _, all _, all _, all _⟩
  · rintro ⟨rs1, rs2, rd, immediate⟩ slot
    cases slot with
    | rs1 => exact rs1
    | rs2 => exact rs2
    | rd => exact rd
    | immediate => exact immediate

instance {p : Slot → Prop} [DecidablePred p] : Decidable (∀ slot, p slot) :=
  decidable_of_iff _ Slot.forall_iff.symm

/-- The five bits of a register slot that is used. -/
def registerBits (used : Bool) (shift : Nat) : Word :=
  if used then Word.span (shift + 4) shift else 0

namespace Rule

/-- The word bits that a slot is read from; none, if the rule does not use it. -/
def slotBits (rule : Rule) : Slot → Word
  | .rs1 => registerBits rule.rs1 15
  | .rs2 => registerBits rule.rs2 20
  | .rd => registerBits rule.rd 7
  | .immediate => rule.immediate.bits

/-- The word bits that some slot is read from. -/
def bits (rule : Rule) : Word :=
  rule.slotBits .rs1 ||| rule.slotBits .rs2 ||| rule.slotBits .rd ||| rule.slotBits .immediate

/-- A bit is read by one slot and by no other. -/
def OnlySlot (rule : Rule) (slot : Slot) (k : Nat) : Prop :=
  (rule.slotBits slot).getLsbD k = true ∧
    ∀ other, other ≠ slot → (rule.slotBits other).getLsbD k = false

/-- A slot shares no bit with another one. -/
def Apart (rule : Rule) (slot : Slot) : Prop :=
  ∀ other, other ≠ slot → rule.slotBits slot &&& rule.slotBits other = 0

instance (rule : Rule) (slot : Slot) : Decidable (rule.Apart slot) :=
  inferInstanceAs (Decidable (∀ other, other ≠ slot → rule.slotBits slot &&& rule.slotBits other = 0))

/-- The bit that operands hold for bit `k` of the word in a slot. An absent operand holds zeros. -/
def operandBit (rule : Rule) (operands : Operands) (k : Nat) : Slot → Bool
  | .rs1 => (operands.rs1.getD 0).testBit (k - 15)
  | .rs2 => (operands.rs2.getD 0).testBit (k - 20)
  | .rd => (operands.rd.getD 0).testBit (k - 7)
  | .immediate =>
    (BitVec.ofInt 32 (operands.imm.getD 0)).getLsbD (rule.immediate.valueBit k)

/-- Operands for just the slots of a rule. -/
structure FilledBy (rule : Rule) (operands : Operands) : Prop where
  rs1 : operands.rs1.isSome = rule.rs1
  rs2 : operands.rs2.isSome = rule.rs2
  rd : operands.rd.isSome = rule.rd
  imm : operands.imm.isSome = true ↔ rule.immediate ≠ .absent

variable {rule : Rule} {operands : Operands} {w w' : Word} {k : Nat}

theorem getLsbD_registerBits {used : Bool} {shift : Nat} (bound : shift + 4 < 32) :
    (registerBits used shift).getLsbD k = (used && decide (shift ≤ k ∧ k ≤ shift + 4)) := by
  cases used with
  | false => exact BitVec.getLsbD_zero
  | true => exact Word.getLsbD_span k (Nat.le_add_right shift 4) bound

theorem getLsbD_bits :
    rule.bits.getLsbD k = true ↔ ∃ slot, (rule.slotBits slot).getLsbD k = true := by
  simp only [bits, BitVec.getLsbD_or, Bool.or_eq_true]
  constructor
  · rintro (((own | own) | own) | own) <;> exact ⟨_, own⟩
  · rintro ⟨slot, own⟩
    cases slot <;> simp [own]

theorem OnlySlot.of_apart {slot : Slot} (apart : rule.Apart slot)
    (own : (rule.slotBits slot).getLsbD k = true) : rule.OnlySlot slot k :=
  ⟨own, fun other ne => Word.and_eq_zero_iff.mp (apart other ne) k own⟩

/-! ## Placing -/

theorem getLsbD_placeRegister {used : Bool} {index : Option Nat} {shift : Nat}
    (bound : shift + 4 < 32) :
    (placeRegister used index shift).getLsbD k =
      ((registerBits used shift).getLsbD k && (index.getD 0).testBit (k - shift)) := by
  rw [getLsbD_registerBits bound]
  cases used with
  | false => simp [placeRegister]
  | true =>
    cases index with
    | none => simp [placeRegister]
    | some r =>
      simp only [placeRegister, BitVec.getLsbD_shiftLeft, BitVec.getLsbD_setWidth,
        BitVec.getLsbD_ofNat, Option.getD_some]
      grind

theorem getLsbD_placeImmediate :
    ((operands.imm.map rule.immediate.encode).getD 0).getLsbD k =
      ((rule.slotBits .immediate).getLsbD k && rule.operandBit operands k .immediate) := by
  cases present : operands.imm with
  | none => simp [operandBit, present]
  | some value =>
    simp only [operandBit, present, Option.map_some, Option.getD_some]
    exact Immediate.getLsbD_encode rule.immediate value k

/-- A bit is placed if some slot has it and the operand holds a one for it. -/
theorem getLsbD_place :
    (rule.place operands).getLsbD k = true ↔
      ∃ slot, (rule.slotBits slot).getLsbD k = true ∧ rule.operandBit operands k slot = true := by
  have parts : rule.place operands =
      placeRegister rule.rs1 operands.rs1 15 ||| placeRegister rule.rs2 operands.rs2 20 |||
        placeRegister rule.rd operands.rd 7 ||| (operands.imm.map rule.immediate.encode).getD 0 := by
    unfold place
    cases operands.imm <;> rfl
  rw [parts, BitVec.getLsbD_or, BitVec.getLsbD_or, BitVec.getLsbD_or, getLsbD_placeImmediate,
    getLsbD_placeRegister (by decide), getLsbD_placeRegister (by decide),
    getLsbD_placeRegister (by decide)]
  simp only [Bool.or_eq_true, Bool.and_eq_true]
  constructor
  · rintro (((own | own) | own) | own)
    · exact ⟨.rs1, own⟩
    · exact ⟨.rs2, own⟩
    · exact ⟨.rd, own⟩
    · exact ⟨.immediate, own⟩
  · rintro ⟨slot, own⟩
    cases slot with
    | rs1 => exact .inl (.inl (.inl own))
    | rs2 => exact .inl (.inl (.inr own))
    | rd => exact .inl (.inr own)
    | immediate => exact .inr own

/-- A bit that only one slot has carries the bit that is placed there. -/
theorem getLsbD_place_of_onlySlot {slot : Slot} (only : rule.OnlySlot slot k) :
    (rule.place operands).getLsbD k = rule.operandBit operands k slot := by
  rw [Bool.eq_iff_iff, getLsbD_place]
  constructor
  · rintro ⟨other, own, set⟩
    by_cases same : other = slot
    · exact same ▸ set
    · rw [only.2 other same] at own
      exact absurd own Bool.false_ne_true
  · exact fun set => ⟨slot, only.1, set⟩

/-! ## Extracting -/

/-- Reading a word fills the slots of the rule. -/
theorem filledBy_extract (rule : Rule) (w : Word) : rule.FilledBy (rule.extract w) where
  rs1 := by cases used : rule.rs1 <;> rw [extract, used] <;> rfl
  rs2 := by cases used : rule.rs2 <;> rw [extract, used] <;> rfl
  rd := by cases used : rule.rd <;> rw [extract, used] <;> rfl
  imm := rule.immediate.isSome_decode? w

/-- Operands that were read from a word hold its bits. -/
theorem operandBit_extract {slot : Slot} (own : (rule.slotBits slot).getLsbD k = true) :
    rule.operandBit (rule.extract w) k slot = w.getLsbD k := by
  have register {used : Bool} {shift : Nat} (bound : shift + 4 < 32)
      (own : (registerBits used shift).getLsbD k = true) :
      ((if used then some (w.extractLsb' shift 5).toNat else none).getD 0).testBit (k - shift) =
        w.getLsbD k := by
    rw [getLsbD_registerBits bound, Bool.and_eq_true, decide_eq_true_eq] at own
    obtain ⟨rfl, lower, upper⟩ := own
    rw [if_pos rfl, Option.getD_some, ← BitVec.getLsbD, BitVec.getLsbD_extractLsb',
      Nat.add_sub_cancel' lower, decide_eq_true (by omega), Bool.true_and]
  cases slot with
  | rs1 => exact register (by decide) own
  | rs2 => exact register (by decide) own
  | rd => exact register (by decide) own
  | immediate =>
    simp only [operandBit, extract]
    cases decoded : rule.immediate.decode? w with
    | none =>
      cases absent : rule.immediate <;> simp [absent, Immediate.decode?] at decoded
      simp [slotBits, absent, Immediate.bits] at own
    | some value => exact Immediate.getLsbD_ofInt_of_decode? decoded own

/-- Placing what was read gives back the word in the bits of the slots, also where slots share
bits. -/
theorem place_extract : rule.place (rule.extract w) = w &&& rule.bits := by
  refine BitVec.eq_of_getLsbD_eq fun k _ => ?_
  rw [Bool.eq_iff_iff, getLsbD_place, BitVec.getLsbD_and, Bool.and_eq_true, getLsbD_bits]
  constructor
  · rintro ⟨slot, own, set⟩
    exact ⟨operandBit_extract own ▸ set, slot, own⟩
  · rintro ⟨set, slot, own⟩
    exact ⟨slot, own, (operandBit_extract own).trans set⟩

/-- A register slot is read from its own bits. -/
theorem extractLsb'_congr {shift : Nat} (bound : shift + 4 < 32)
    (same : ∀ k, (registerBits true shift).getLsbD k = true → w.getLsbD k = w'.getLsbD k) :
    w.extractLsb' shift 5 = w'.extractLsb' shift 5 := by
  refine BitVec.eq_of_getLsbD_eq fun k low => ?_
  have own : (registerBits true shift).getLsbD (shift + k) = true := by
    rw [getLsbD_registerBits bound, Bool.true_and, decide_eq_true (by omega)]
  rw [BitVec.getLsbD_extractLsb', BitVec.getLsbD_extractLsb', same _ own]

/-- A word that holds the bits of an operand in a register slot is read as the operand. -/
theorem toNat_extract_of_operandBit {slot : Slot} {index shift : Nat}
    (inRange : index < registerCount) (bound : shift + 4 < 32)
    (own : rule.slotBits slot = registerBits true shift)
    (holds : ∀ k, rule.operandBit operands k slot = index.testBit (k - shift))
    (held : ∀ k, (rule.slotBits slot).getLsbD k = true →
      w.getLsbD k = rule.operandBit operands k slot) :
    (w.extractLsb' shift 5).toNat = index := by
  have slice : w.extractLsb' shift 5 = BitVec.ofNat 5 index := by
    refine BitVec.eq_of_getLsbD_eq fun k low => ?_
    have inside : (rule.slotBits slot).getLsbD (shift + k) = true := by
      rw [own, getLsbD_registerBits bound, Bool.true_and, decide_eq_true (by omega)]
    rw [BitVec.getLsbD_extractLsb', BitVec.getLsbD_ofNat, held _ inside, holds,
      Nat.add_sub_cancel_left]
  rw [slice, BitVec.toNat_ofNat]
  exact Nat.mod_eq_of_lt inRange

end Rule

end DecodeTables
