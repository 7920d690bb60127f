import DecodeTables.Proofs.RoundTrip

/-!
# Instructions with shared slots

The fields of an instruction cover the bits that are not literal, and nothing keeps two fields
apart. `Rule.collides` says which rules have two slots with a bit in common: two registers never share
one, and a register shares either no bit with the immediate or all five. In the second case the
immediate drowns the register (`Instruction.not_tellsApart_of_collides`), so different operands are
encoded as one word. In the first case every operand can be told from the word (`sharedSlots_iff`).
-/

namespace DecodeTables

namespace Rule

/-- Whether a register slot lies in the bits of the immediate. -/
def collides (rule : Rule) : Bool :=
  match rule.immediate with
  | .i | .fence => rule.rs2
  | .s | .b => rule.rd
  | .u | .j => rule.rs1 || rule.rs2
  | .absent => false

variable {rule : Rule} {slot other : Slot} {k : Nat}

/-- Slots are told by the places of their bits. -/
theorem getLsbD_slotBits : (rule.slotBits slot).getLsbD k = match slot with
    | .rs1 => rule.rs1 && decide (15 ≤ k ∧ k ≤ 19)
    | .rs2 => rule.rs2 && decide (20 ≤ k ∧ k ≤ 24)
    | .rd => rule.rd && decide (7 ≤ k ∧ k ≤ 11)
    | .immediate => rule.immediate.bits.getLsbD k := by
  cases slot with
  | rs1 => exact getLsbD_registerBits (by decide)
  | rs2 => exact getLsbD_registerBits (by decide)
  | rd => exact getLsbD_registerBits (by decide)
  | immediate => rfl

/-- A register slot and the immediate share no bit, unless the rule collides. -/
theorem getLsbD_immediate_of_register (apart : rule.collides = false) (register : slot ≠ .immediate)
    (own : (rule.slotBits slot).getLsbD k = true) : rule.immediate.bits.getLsbD k = false := by
  rw [getLsbD_slotBits] at own
  rw [Immediate.getLsbD_bits]
  unfold collides at apart
  cases layout : rule.immediate <;> rw [layout] at apart <;> cases slot <;> grind

/-- No two slots share a bit, unless the rule collides. -/
theorem getLsbD_slotBits_of_ne (apart : rule.collides = false) (ne : slot ≠ other)
    (own : (rule.slotBits slot).getLsbD k = true) : (rule.slotBits other).getLsbD k = false := by
  by_cases immediate : slot = .immediate
  · subst immediate
    rw [Bool.eq_false_iff]
    intro shared
    have free := getLsbD_immediate_of_register apart ne.symm shared
    exact absurd (own.symm.trans free) (by decide)
  by_cases immediate' : other = .immediate
  · subst immediate'
    exact getLsbD_immediate_of_register apart immediate own
  · rw [getLsbD_slotBits] at own ⊢
    cases slot <;> cases other <;> grind

/-- In a rule that collides, some register slot has bits, all of them within the immediate. -/
theorem exists_within_of_collides (collides : rule.collides = true) :
    ∃ slot k, slot ≠ Slot.immediate ∧ (rule.slotBits slot).getLsbD k = true ∧
      rule.slotBits slot &&& rule.immediate.bits = rule.slotBits slot := by
  obtain ⟨rs1, rs2, rd, layout⟩ := rule
  unfold Rule.collides at collides
  cases layout with
  | i | fence =>
    obtain rfl : rs2 = true := collides
    exact ⟨.rs2, 20, by decide, (by decide : (registerBits true 20).getLsbD 20 = true),
      (by decide : registerBits true 20 &&& Immediate.i.bits = registerBits true 20)⟩
  | s | b =>
    obtain rfl : rd = true := collides
    exact ⟨.rd, 7, by decide, (by decide : (registerBits true 7).getLsbD 7 = true),
      (by decide : registerBits true 7 &&& Immediate.s.bits = registerBits true 7)⟩
  | u | j =>
    rcases Bool.or_eq_true_iff.mp collides with used | used
    · obtain rfl : rs1 = true := used
      exact ⟨.rs1, 15, by decide, (by decide : (registerBits true 15).getLsbD 15 = true),
        (by decide : registerBits true 15 &&& Immediate.u.bits = registerBits true 15)⟩
    · obtain rfl : rs2 = true := used
      exact ⟨.rs2, 20, by decide, (by decide : (registerBits true 20).getLsbD 20 = true),
        (by decide : registerBits true 20 &&& Immediate.u.bits = registerBits true 20)⟩
  | absent => cases collides

end Rule

/-- The operands with the register of a slot, if there is one, replaced by the first. -/
def Operands.clear (operands : Operands) : Slot → Operands
  | .rs1 => { operands with rs1 := operands.rs1.map fun _ => 0 }
  | .rs2 => { operands with rs2 := operands.rs2.map fun _ => 0 }
  | .rd => { operands with rd := operands.rd.map fun _ => 0 }
  | .immediate => operands

namespace Rule

variable {rule : Rule} {operands : Operands} {slot other : Slot} {k : Nat} {w : Word}

theorem FilledBy.clear (filled : rule.FilledBy operands) (slot : Slot) :
    rule.FilledBy (operands.clear slot) := by
  obtain ⟨rs1, rs2, rd, imm⟩ := filled
  cases slot with
  | rs1 => exact ⟨Option.isSome_map.trans rs1, rs2, rd, imm⟩
  | rs2 => exact ⟨rs1, Option.isSome_map.trans rs2, rd, imm⟩
  | rd => exact ⟨rs1, rs2, Option.isSome_map.trans rd, imm⟩
  | immediate => exact ⟨rs1, rs2, rd, imm⟩

theorem operandBit_clear_of_ne (ne : other ≠ slot) :
    rule.operandBit (operands.clear slot) k other = rule.operandBit operands k other := by
  cases slot <;> cases other <;> first | rfl | exact absurd rfl ne

theorem operandBit_clear_self (register : slot ≠ .immediate) :
    rule.operandBit (operands.clear slot) k slot = false := by
  have zero (index : Option Nat) : (index.map fun _ => 0).getD 0 = 0 := by cases index <;> rfl
  cases slot with
  | immediate => exact absurd rfl register
  | _ => simp only [operandBit, Operands.clear, zero, Nat.zero_testBit]

/-- Operands with every bit set are placed alike with and without a register that lies within the
immediate. -/
theorem place_clear_of_within
    (within : rule.slotBits slot &&& rule.immediate.bits = rule.slotBits slot)
    (register : slot ≠ .immediate) :
    rule.place ((rule.extract (BitVec.allOnes 32)).clear slot) =
      rule.place (rule.extract (BitVec.allOnes 32)) := by
  have set {s : Slot} {k : Nat} (own : (rule.slotBits s).getLsbD k = true) :
      rule.operandBit (rule.extract (BitVec.allOnes 32)) k s = true := by
    rw [operandBit_extract own, BitVec.getLsbD_allOnes, decide_eq_true (BitVec.lt_of_getLsbD own)]
  refine BitVec.eq_of_getLsbD_eq fun k _ => ?_
  rw [Bool.eq_iff_iff, getLsbD_place, getLsbD_place]
  constructor
  · intro placed
    obtain ⟨s, own, -⟩ := placed
    exact ⟨s, own, set own⟩
  · intro placed
    obtain ⟨s, own, -⟩ := placed
    by_cases cleared : s = slot
    · have drowned : (rule.slotBits .immediate).getLsbD k = true :=
        Word.and_eq_left_iff.mp within k (cleared ▸ own)
      exact ⟨.immediate, drowned, (operandBit_clear_of_ne register.symm).trans (set drowned)⟩
    · exact ⟨s, own, (operandBit_clear_of_ne cleared).trans (set own)⟩

theorem Accepts.clear (accepted : rule.Accepts operands) (slot : Slot) :
    rule.Accepts (operands.clear slot) := by
  have zero (register : Option Nat) (index : Nat)
      (same : (register.map fun _ => 0) = some index) : index < registerCount := by
    cases register with
    | none => cases same
    | some _ =>
      obtain rfl : 0 = index := Option.some.inj same
      decide
  obtain ⟨registers, imm⟩ := accepted
  simp only [List.mem_cons, List.not_mem_nil, or_false, forall_eq_or_imp, forall_eq] at registers
  obtain ⟨rs1, rs2, rd⟩ := registers
  cases slot <;> refine ⟨?_, imm⟩ <;>
    simp only [List.mem_cons, List.not_mem_nil, or_false, forall_eq_or_imp, forall_eq]
  case rs1 => exact ⟨zero operands.rs1, rs2, rd⟩
  case rs2 => exact ⟨rs1, zero operands.rs2, rd⟩
  case rd => exact ⟨rs1, rs2, zero operands.rd⟩
  case immediate => exact ⟨rs1, rs2, rd⟩

end Rule

namespace Instruction

/-- No bit that is not literal is read by two slots. -/
def SlotsApart (i : Instruction) (rule : Rule) : Prop :=
  ∀ (slot other : Slot) (k : Nat), slot ≠ other → i.mask.getLsbD k = false →
    (rule.slotBits slot).getLsbD k = true → (rule.slotBits other).getLsbD k = false

/-- Operands for just the slots of the rule are encoded as one word only if they have the same
registers, and the same immediate as far as its bits are not literal. -/
def TellsApart (i : Instruction) (rule : Rule) : Prop :=
  ∀ (a b : Operands) (w : Word), rule.FilledBy a → rule.FilledBy b →
    i.encode? a = some w → i.encode? b = some w →
      a.rs1 = b.rs1 ∧ a.rs2 = b.rs2 ∧ a.rd = b.rd ∧
        ∀ x y, a.imm = some x → b.imm = some y →
          rule.immediate.encode x &&& ~~~i.mask = rule.immediate.encode y &&& ~~~i.mask

/-- Two registers that are both what is read, if there is a slot for them, are the same. -/
theorem eq_of_read {x y read : Option Nat} {used : Bool} (present : x.isSome = used)
    (present' : y.isSome = used) (same : used = true → read = some (x.getD 0))
    (same' : used = true → read = some (y.getD 0)) : x = y := by
  cases x with
  | none =>
    subst present
    exact (Option.not_isSome_iff_eq_none.mp (by rw [present']; decide)).symm
  | some index =>
    subst present
    obtain ⟨index', rfl⟩ := Option.isSome_iff_exists.mp present'
    exact congrArg some (Option.some.inj ((same rfl).symm.trans (same' rfl)))

variable {i : Instruction} {rule : Rule} {slot : Slot}
  (derived : Rule.ofFields? i.fields = some rule)
include derived

/-- Slots that share a bit share one that is not literal: no register slot has a literal bit. -/
theorem slotsApart_iff_not_collides : i.SlotsApart rule ↔ rule.collides = false := by
  constructor
  · intro apart
    rw [Bool.eq_false_iff]
    intro collides
    obtain ⟨slot, k, register, own, within⟩ := Rule.exists_within_of_collides collides
    have free := apart slot .immediate k register (mask_of_register derived register own) own
    exact absurd ((Word.and_eq_left_iff.mp within k own).symm.trans free) (by decide)
  · intro apart slot other k ne _ own
    exact Rule.getLsbD_slotBits_of_ne apart ne own

/-- A register that lies within the immediate is lost where the immediate has every bit set. -/
theorem not_tellsApart_of_collides (collides : rule.collides = true) : ¬ i.TellsApart rule := by
  intro apart
  obtain ⟨slot, k, register, own, within⟩ := Rule.exists_within_of_collides collides
  let full := rule.extract (BitVec.allOnes 32)
  have accepted : rule.Accepts full := rule.accepts_extract _
  have filled : rule.FilledBy full := rule.filledBy_extract _
  obtain ⟨rs1, rs2, rd, -⟩ := apart full (full.clear slot) _ filled (filled.clear slot)
    ((encode?_eq_some_iff derived).mpr ⟨accepted, rfl⟩)
    ((encode?_eq_some_iff derived).mpr ⟨accepted.clear slot, by
      rw [Rule.place_clear_of_within within register]⟩)
  -- The slot has a bit, which is set in one of the two registers and clear in the other.
  have set : rule.operandBit full k slot = true := by
    rw [Rule.operandBit_extract own, BitVec.getLsbD_allOnes,
      decide_eq_true (BitVec.lt_of_getLsbD own)]
  have same : rule.operandBit full k slot = rule.operandBit (full.clear slot) k slot := by
    cases slot with
    | rs1 => simp only [Rule.operandBit, ← rs1]
    | rs2 => simp only [Rule.operandBit, ← rs2]
    | rd => simp only [Rule.operandBit, ← rd]
    | immediate => rfl
  rw [Rule.operandBit_clear_self register, set] at same
  cases same

/-- Where no slots share a bit, every operand can be told from the word. -/
theorem tellsApart_of_not_collides (apart : rule.collides = false) : i.TellsApart rule := by
  intro a b w filled filled' encoded encoded'
  have back := readsBack_of_encode? derived encoded
  have back' := readsBack_of_encode? derived encoded'
  have disjoint (slot : Slot) : rule.Apart slot := fun other ne =>
    Word.and_eq_zero_iff.mpr fun k own => Rule.getLsbD_slotBits_of_ne apart ne.symm own
  have rs1 := eq_of_read filled.rs1 filled'.rs1 (back.rs1 · (disjoint _)) (back'.rs1 · (disjoint _))
  have rs2 := eq_of_read filled.rs2 filled'.rs2 (back.rs2 · (disjoint _)) (back'.rs2 · (disjoint _))
  have rd := eq_of_read filled.rd filled'.rd (back.rd · (disjoint _)) (back'.rd · (disjoint _))
  refine ⟨rs1, rs2, rd, fun x y held held' => Word.and_eq_and_iff.mpr fun k free => ?_⟩
  rw [BitVec.getLsbD_not, Bool.and_eq_true, Bool.not_eq_true'] at free
  rw [Immediate.getLsbD_encode, Immediate.getLsbD_encode]
  cases own : rule.immediate.bits.getLsbD k with
  | false => rfl
  | true =>
    have only : rule.OnlySlot .immediate k := .of_apart (disjoint .immediate) own
    have bit := (back.bit .immediate k only free.2).1
    have bit' := (back'.bit .immediate k only free.2).1
    simp only [Rule.operandBit, held, held', Option.getD_some] at bit bit'
    rw [← bit, ← bit']

end Instruction

/-- The slots of an instruction keep their bits to themselves, and encoding keeps operands apart,
exactly for the rules in which no register lies within the immediate. -/
theorem sharedSlots_iff (i : Instruction) {rule : Rule} (derived : i.rule = .ok rule) :
    (i.SlotsApart rule ↔ rule.collides = false) ∧ (i.TellsApart rule ↔ rule.collides = false) := by
  have derived := Instruction.rule_eq_ok.mp derived
  refine ⟨Instruction.slotsApart_iff_not_collides derived, fun apart => ?_,
    Instruction.tellsApart_of_not_collides derived⟩
  rw [Bool.eq_false_iff]
  exact fun collides => Instruction.not_tellsApart_of_collides derived collides apart

/-- A branch has two registers and a split offset, and no bit is in two of them. -/
theorem sharedSlots_iff_branch : ∃ rule, Overlapping.beq.rule = .ok rule ∧
    Overlapping.beq.SlotsApart rule ∧ Overlapping.beq.TellsApart rule := by
  obtain ⟨slots, operands⟩ := sharedSlots_iff Overlapping.beq
    (by decide : Overlapping.beq.rule = .ok ⟨true, true, false, .b⟩)
  exact ⟨_, by decide, slots.mpr (by decide), operands.mpr (by decide)⟩

/-- An addition with a second register, whose slot lies within the immediate. -/
def addi3 : Instruction where
  id := "addi3"
  encoding := "-----------------000-----0010011"
  mask := 0x707f
  value := 0x13
  fields := [.rd, .rs1, .rs2, .imm12]
  extensions := []
  id_ne := by decide
  read_encoding := by decide
  opcode_literal := Overlapping.system.opcode_literal
  fields_normal := by decide
  union_fields := by decide

/-- An instruction with slots that share bits is accepted. Its register one with the immediate zero
is encoded as the same word as its register zero with the immediate one. -/
theorem sharedSlots_accepted : ∃ i rule,
    Instruction.ofEncoding "addi3" "-----------------000-----0010011" 0x707f 0x13
      [.rd, .rs1, .rs2, .imm12] = .ok i ∧ i.rule = .ok rule ∧
    i.encode? { rs1 := some 0, rs2 := some 1, rd := some 0, imm := some 0 } = some 0x00100013 ∧
    i.encode? { rs1 := some 0, rs2 := some 0, rd := some 0, imm := some 1 } = some 0x00100013 ∧
    ¬ i.SlotsApart rule ∧ ¬ i.TellsApart rule := by
  have one : addi3.encode? { rs1 := some 0, rs2 := some 1, rd := some 0, imm := some 0 } =
      some 0x00100013 := by decide
  have zero : addi3.encode? { rs1 := some 0, rs2 := some 0, rd := some 0, imm := some 1 } =
      some 0x00100013 := by decide
  refine ⟨addi3, ⟨true, true, true, .i⟩, Instruction.ofEncoding_self addi3, by decide, one, zero,
    fun apart => ?_, fun apart => ?_⟩
  · have free := apart .rs2 .immediate 20 (by decide) (by decide) (by decide)
    exact absurd free (by decide)
  · obtain ⟨-, rs2, -⟩ := apart _ _ _ ⟨rfl, rfl, rfl, by decide⟩ ⟨rfl, rfl, rfl, by decide⟩ one zero
    cases rs2

end DecodeTables
