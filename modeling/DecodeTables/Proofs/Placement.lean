import DecodeTables.Proofs.Instruction

/-!
# Placing and extracting

The laws of a rule by itself, whatever bits its slots share. Extracting reads the bits of the slots
and no others (`Rule.extract_and_bits`), placing sets none but these (`Rule.place_within`), and what
was extracted is placed where it was (`Rule.place_extract`). Where slots share no bit, operands that
a slot has room for come back from the word as well (`Rule.extract_place`).
-/

namespace DecodeTables.Rule

/-- Each used slot has an operand that it has room for. -/
structure Filling (rule : Rule) (operands : Operands) : Prop where
  rs1 : rule.rs1 = true → ∃ index < registerCount, operands.rs1 = some index
  rs2 : rule.rs2 = true → ∃ index < registerCount, operands.rs2 = some index
  rd : rule.rd = true → ∃ index < registerCount, operands.rd = some index
  imm : rule.immediate ≠ .absent →
    ∃ value, rule.immediate.fits value = true ∧ operands.imm = some value

/-- The operands that a rule has slots for. -/
def restrict (rule : Rule) (operands : Operands) : Operands where
  rs1 := if rule.rs1 then operands.rs1 else none
  rs2 := if rule.rs2 then operands.rs2 else none
  rd := if rule.rd then operands.rd else none
  imm := if rule.immediate = .absent then none else operands.imm

variable {rule : Rule} {operands : Operands} {slot : Slot} {w w' : Word}

theorem bits_eq (rule : Rule) : rule.bits =
    (if rule.rs1 then 0x000f8000 else 0) ||| (if rule.rs2 then 0x01f00000 else 0) |||
      (if rule.rd then 0x00000f80 else 0) ||| rule.immediate.bits := by
  have low : Word.span 11 7 = 0x00000f80 := by decide
  have middle : Word.span 19 15 = 0x000f8000 := by decide
  have high : Word.span 24 20 = 0x01f00000 := by decide
  simp only [bits, slotBits, registerBits, low, middle, high]

theorem slotBits_within (rule : Rule) (slot : Slot) :
    rule.slotBits slot &&& rule.bits = rule.slotBits slot :=
  Word.and_eq_left_iff.mpr fun _ own => getLsbD_bits.mpr ⟨slot, own⟩

/-! ## Extracting -/

/-- Words that agree in every slot hold the same operands. -/
theorem extract_congr (same : ∀ slot, w &&& rule.slotBits slot = w' &&& rule.slotBits slot) :
    rule.extract w = rule.extract w' := by
  have register {used : Bool} {shift : Nat} (bound : shift + 4 < 32)
      (same : w &&& registerBits used shift = w' &&& registerBits used shift) :
      (if used then some (w.extractLsb' shift 5).toNat else none) =
        if used then some (w'.extractLsb' shift 5).toNat else none := by
    cases used with
    | false => rfl
    | true => rw [extractLsb'_congr bound (Word.and_eq_and_iff.mp same)]
  unfold extract
  rw [register (by decide) (same .rs1), register (by decide) (same .rs2),
    register (by decide) (same .rd), Immediate.decode?_congr (same .immediate)]

/-- Extracting reads no bit outside the slots. -/
theorem extract_and_bits : rule.extract (w &&& rule.bits) = rule.extract w := by
  refine extract_congr fun slot => ?_
  rw [BitVec.and_assoc, BitVec.and_comm rule.bits, slotBits_within]

/-! ## Placing -/

/-- Placing sets no bit outside the slots, whatever the operands are. -/
theorem place_within : rule.place operands &&& rule.bits = rule.place operands := by
  refine Word.and_eq_left_iff.mpr fun k set => ?_
  obtain ⟨slot, own, -⟩ := getLsbD_place.mp set
  exact getLsbD_bits.mpr ⟨slot, own⟩

/-- An immediate that fits is read from a slot that shares no bit. -/
theorem decode?_place {value : Int} (fits : rule.immediate.fits value = true)
    (held : operands.imm = some value) (apart : rule.Apart .immediate) :
    rule.immediate.decode? (rule.place operands) = some value := by
  refine Immediate.decode?_of_getLsbD fits fun k own => ?_
  rw [getLsbD_place_of_onlySlot (.of_apart apart own), operandBit, held, Option.getD_some]

/-- Where no slots share a bit, the operands of the slots come back. -/
theorem extract_place (apart : ∀ slot, rule.Apart slot) (filling : rule.Filling operands) :
    rule.extract (rule.place operands) = rule.restrict operands := by
  have register (slot : Slot) {used : Bool} {operand : Option Nat} {shift : Nat}
      (bound : shift + 4 < 32) (own : rule.slotBits slot = registerBits used shift)
      (holds : ∀ k, rule.operandBit operands k slot = (operand.getD 0).testBit (k - shift))
      (filled : used = true → ∃ index < registerCount, operand = some index) :
      (if used then some ((rule.place operands).extractLsb' shift 5).toNat else none) =
        if used then operand else none := by
    cases used with
    | false => rfl
    | true =>
      obtain ⟨index, inRange, rfl⟩ := filled rfl
      exact congrArg some (toNat_extract_of_operandBit inRange bound own holds fun k inside =>
        getLsbD_place_of_onlySlot (.of_apart (apart slot) inside))
  have immediate : rule.immediate.decode? (rule.place operands) =
      if rule.immediate = .absent then none else operands.imm := by
    split
    · rename_i absent
      rw [absent, Immediate.decode?]
    · rename_i present
      obtain ⟨value, fits, held⟩ := filling.imm present
      rw [decode?_place fits held (apart .immediate), held]
  unfold extract restrict
  rw [register .rs1 (by decide) rfl (fun _ => rfl) filling.rs1,
    register .rs2 (by decide) rfl (fun _ => rfl) filling.rs2,
    register .rd (by decide) rfl (fun _ => rfl) filling.rd, immediate]

/-- What a rule reads and sets are the bits of its slots, also where slots share bits. Extracting
depends on these bits alone and gives registers that exist. Placing what was extracted gives these bits
back, from which the same is extracted again, and placing any operands sets no other bit. If no slots
share a bit, operands that fit their slots come back, and none that has no slot. -/
theorem slots_exact (rule : Rule) :
    rule.bits = ((if rule.rs1 then 0x000f8000 else 0) ||| (if rule.rs2 then 0x01f00000 else 0) |||
      (if rule.rd then 0x00000f80 else 0) ||| rule.immediate.bits) ∧
    (∀ w, rule.place (rule.extract w) = w &&& rule.bits) ∧
    (∀ w w', w &&& rule.bits = w' &&& rule.bits → rule.extract w = rule.extract w') ∧
    (∀ w, ∀ register ∈ [(rule.extract w).rs1, (rule.extract w).rs2, (rule.extract w).rd],
      ∀ index, register = some index → index < 32) ∧
    (∀ operands, rule.place operands &&& ~~~rule.bits = 0) ∧
    (∀ w, rule.extract (rule.place (rule.extract w)) = rule.extract w) ∧
    ((∀ slot, rule.Apart slot) → ∀ operands, rule.Filling operands →
      rule.extract (rule.place operands) = rule.restrict operands) := by
  refine ⟨rule.bits_eq, fun _ => place_extract, fun w w' same => ?_,
    fun w => (rule.accepts_extract w).register_lt, fun operands => ?_, fun w => ?_,
    fun apart _ => extract_place apart⟩
  · rw [← extract_and_bits, same, extract_and_bits]
  · rw [← place_within, BitVec.and_assoc, BitVec.and_not_self]
    exact BitVec.and_zero
  · rw [place_extract, extract_and_bits]

/-- A rule with a register inside its immediate, and a branch, whose slots share no bit. Register 228
is placed as register 4, and an operand that has no slot is gone. -/
theorem slots_exact_shared :
    (⟨true, true, true, .i⟩ : Rule).place ((⟨true, true, true, .i⟩ : Rule).extract 0x00208093) =
      0x00208080 ∧
    (⟨true, true, false, .b⟩ : Rule).place { rs2 := some 228 } = 0x00400000 ∧
    (⟨true, true, false, .b⟩ : Rule).place { rs2 := some 228 } &&&
      ~~~(⟨true, true, false, .b⟩ : Rule).bits = 0 ∧
    (⟨true, true, false, .b⟩ : Rule).extract ((⟨true, true, false, .b⟩ : Rule).place
      { rs1 := some 3, rs2 := some 4, rd := some 9, imm := some (-8) }) =
      { rs1 := some 3, rs2 := some 4, imm := some (-8) } := by
  obtain ⟨-, kept, -⟩ := slots_exact ⟨true, true, true, .i⟩
  obtain ⟨-, -, -, -, within, -, back⟩ := slots_exact ⟨true, true, false, .b⟩
  refine ⟨(kept 0x00208093).trans (by decide), by decide, within _, ?_⟩
  exact (back (by decide) _ ⟨fun _ => ⟨3, by decide, rfl⟩, fun _ => ⟨4, by decide, rfl⟩,
    fun used => absurd used (by decide), fun _ => ⟨-8, by decide, rfl⟩⟩).trans rfl

end DecodeTables.Rule
