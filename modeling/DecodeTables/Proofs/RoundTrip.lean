import DecodeTables.Proofs.Overlap

/-!
# Encoding and decoding again

A word that an instruction encodes is one of its own words, so a table refuses it never and reads it
as another instruction only at an overlap (`decode_encoded`). If it is read as its own, the operands
come back in every slot that shares no bit; a bit that is literal or in two slots is not the
operand's alone (`Rule.ReadsBack`). The other way round nothing is lost that some slot reads
(`encode_decoded`).
-/

namespace DecodeTables

/-- What is read from a word, compared with the operands that were placed in it. -/
structure Rule.ReadsBack (rule : Rule) (literal : Word) (placed : Operands) (w : Word)
    (read : Operands) : Prop where
  rs1_isSome : read.rs1.isSome = rule.rs1
  rs2_isSome : read.rs2.isSome = rule.rs2
  rd_isSome : read.rd.isSome = rule.rd
  imm_isSome : read.imm.isSome = true ↔ rule.immediate ≠ .absent
  /-- A bit of one slot alone carries the bit of the operand, in the word and in what is read. -/
  bit : ∀ slot k, rule.OnlySlot slot k → literal.getLsbD k = false →
    w.getLsbD k = rule.operandBit placed k slot ∧
      rule.operandBit read k slot = rule.operandBit placed k slot
  rs1 : rule.rs1 = true → rule.Apart .rs1 → read.rs1 = some (placed.rs1.getD 0)
  rs2 : rule.rs2 = true → rule.Apart .rs2 → read.rs2 = some (placed.rs2.getD 0)
  rd : rule.rd = true → rule.Apart .rd → read.rd = some (placed.rd.getD 0)
  imm : rule.immediate ≠ .absent → rule.Apart .immediate → rule.immediate.bits &&& literal = 0 →
    read.imm = some (placed.imm.getD 0)

namespace Instruction

variable {instruction : Instruction} {rule : Rule} {operands : Operands} {w : Word}

/-- The operands that are refused: one with a register that does not exist, or with an immediate that
the layout does not have room for. -/
theorem encode?_eq_none_iff_exists (derived : Rule.ofFields? instruction.fields = some rule) :
    instruction.encode? operands = none ↔
      (∃ index, (operands.rs1 = some index ∨ operands.rs2 = some index ∨
        operands.rd = some index) ∧ registerCount ≤ index) ∨
      ∃ value, operands.imm = some value ∧
        (rule.immediate = .absent ∨ rule.immediate.fits value = false) := by
  rw [encode?_eq_none_iff derived]
  constructor
  · intro refused
    by_contra allFine
    rw [not_or] at allFine
    refine refused ⟨fun register member index present => ?_, fun value present => ?_⟩
    · by_contra beyond
      simp only [List.mem_cons, List.not_mem_nil, or_false] at member
      refine allFine.1 ⟨index, ?_, Nat.le_of_not_lt beyond⟩
      rcases member with rfl | rfl | rfl
      · exact .inl present
      · exact .inr (.inl present)
      · exact .inr (.inr present)
    · by_contra unfit
      exact allFine.2 ⟨value, present, .inr (Bool.eq_false_iff.mpr unfit)⟩
  · rintro (⟨index, present, beyond⟩ | ⟨value, present, unfit⟩) accepted
    · have inRange := accepted.register_lt (some index)
        (by rcases present with present | present | present <;> simp [present]) index rfl
      exact absurd beyond (Nat.not_le_of_lt inRange)
    · have fits := accepted.imm_fits value present
      rcases unfit with absent | unfit
      · rw [absent] at fits
        cases fits
      · rw [unfit] at fits
        cases fits

/-- The literal bits of a word that matches, joined with what its slots hold. -/
theorem and_or_bits (carried : instruction.isMatch w = true) :
    w &&& (instruction.mask ||| rule.bits) =
      instruction.value ||| rule.place (rule.extract w) &&& ~~~instruction.mask := by
  rw [Rule.place_extract, ← isMatch_iff.mp carried]
  refine BitVec.eq_of_getLsbD_eq fun k bound => ?_
  simp only [BitVec.getLsbD_and, BitVec.getLsbD_or, BitVec.getLsbD_not, bound, decide_true]
  cases w.getLsbD k <;> cases instruction.mask.getLsbD k <;> simp

variable (derived : Rule.ofFields? instruction.fields = some rule)
  (encoded : instruction.encode? operands = some w)
include derived encoded

/-- A bit that is not literal and lies in one slot alone carries the bit of the operand. -/
theorem getLsbD_of_onlySlot {slot : Slot} {k : Nat} (only : rule.OnlySlot slot k)
    (free : instruction.mask.getLsbD k = false) :
    w.getLsbD k = rule.operandBit operands k slot := by
  rw [getLsbD_of_encode? derived encoded free, Rule.getLsbD_place_of_onlySlot only]

/-- A register slot that shares no bit is read as the index that was placed there. -/
theorem toNat_extract_of_apart {slot : Slot} {register : Option Nat} {shift : Nat}
    (member : register ∈ [operands.rs1, operands.rs2, operands.rd]) (isRegister : slot ≠ .immediate)
    (bound : shift + 4 < 32) (own : rule.slotBits slot = registerBits true shift)
    (holds : ∀ k, rule.operandBit operands k slot = (register.getD 0).testBit (k - shift))
    (apart : rule.Apart slot) : (w.extractLsb' shift 5).toNat = register.getD 0 := by
  have accepted := ((encode?_eq_some_iff derived).mp encoded).1
  have inRange : register.getD 0 < registerCount := by
    cases present : register with
    | none => decide
    | some index => exact accepted.register_lt register member index present
  exact Rule.toNat_extract_of_operandBit inRange bound own holds fun k inside =>
    getLsbD_of_onlySlot derived encoded (.of_apart apart inside)
      (mask_of_register derived isRegister inside)

theorem readsBack_of_encode? :
    rule.ReadsBack instruction.mask operands w (rule.extract w) where
  rs1_isSome := (rule.filledBy_extract w).rs1
  rs2_isSome := (rule.filledBy_extract w).rs2
  rd_isSome := (rule.filledBy_extract w).rd
  imm_isSome := (rule.filledBy_extract w).imm
  bit slot k only free := by
    rw [Rule.operandBit_extract only.1]
    have held := getLsbD_of_onlySlot derived encoded only free
    exact ⟨held, held⟩
  rs1 used apart := by
    have read : (w.extractLsb' 15 5).toNat = operands.rs1.getD 0 := toNat_extract_of_apart
      derived encoded (by simp) (by decide) (by decide) (by rw [Rule.slotBits, used])
      (fun _ => rfl) apart
    rw [Rule.extract, if_pos used, read]
  rs2 used apart := by
    have read : (w.extractLsb' 20 5).toNat = operands.rs2.getD 0 := toNat_extract_of_apart
      derived encoded (by simp) (by decide) (by decide) (by rw [Rule.slotBits, used])
      (fun _ => rfl) apart
    rw [Rule.extract, if_pos used, read]
  rd used apart := by
    have read : (w.extractLsb' 7 5).toNat = operands.rd.getD 0 := toNat_extract_of_apart
      derived encoded (by simp) (by decide) (by decide) (by rw [Rule.slotBits, used])
      (fun _ => rfl) apart
    rw [Rule.extract, if_pos used, read]
  imm present apart unpinned := by
    have accepted := ((encode?_eq_some_iff derived).mp encoded).1
    have fits : rule.immediate.fits (operands.imm.getD 0) = true := by
      cases given : operands.imm with
      | none => exact Immediate.fits_zero present
      | some value => exact accepted.imm_fits value given
    exact Immediate.decode?_of_getLsbD fits fun k own =>
      getLsbD_of_onlySlot derived encoded (.of_apart apart own)
        (Word.and_eq_zero_iff.mp unpinned k own)

end Instruction

namespace Table.DerivedFrom

variable {order : TrialOrder} {instructions : List Instruction} {t : Table} {raw : Word} {n : Nat}
  {i : Instruction} {rule : Rule} {d : Decoded} (table : DerivedFrom order instructions t)
include table

/-- An instruction loses a word that it matches exactly at an overlap that it is shadowed in, to a
winner that matches the word. -/
theorem decode_ordinal_eq_iff (listed : instructions[n]? = some i) (carried : i.isMatch raw = true)
    (decoded : t.decode raw = .ok d) :
    d.ordinal = n ↔ ¬ ∃ o ∈ t.overlaps, o.shadowed = n ∧ ∃ winner,
      instructions[o.winner]? = some winner ∧ winner.isMatch raw = true := by
  obtain ⟨j, rule, wins, -, -⟩ := table.decode_eq_ok_iff.mp decoded
  constructor
  · rintro same ⟨o, listedOverlap, shadowed, winner, listedWinner, carriedWinner⟩
    obtain ⟨a, b, listedA, listedB, before, -, -⟩ := table.mem_overlaps_iff.mp listedOverlap
    obtain rfl := Option.some.inj (listedWinner.symm.trans listedA)
    have own : some b = some j := by rw [← listedB, ← wins.listed, shadowed, same]
    rw [Option.some.inj own] at before
    exact wins.first winner (List.mem_of_getElem? listedWinner) carriedWinner before
  · intro none
    refine table.wins_unique wins ⟨listed, carried, fun other member carried' before => ?_⟩
    obtain ⟨m, listed'⟩ := List.mem_iff_getElem?.mp member
    refine none ⟨⟨m, n, other.value ||| i.value⟩, table.mem_overlaps_iff.mpr
      ⟨other, i, listed', listed, before, ?_, rfl⟩, rfl, other, listed', carried'⟩
    exact Instruction.agree_iff_exists.mpr ⟨raw, carried', carried⟩

end Table.DerivedFrom

/-- Encoding refuses only registers that do not exist and immediates that do not fit. What it encodes
is decoded, as the instruction itself unless an overlap gives the word to another, and then with the
operands that its slots have to themselves. -/
theorem decode_encoded {order : TrialOrder} {instructions : List Instruction} {t : Table}
    (built : Table.ofInstructions order instructions = .ok t) {n : Nat} {i : Instruction}
    (listed : t.instructions[n]? = some i) (operands : Operands) :
    ∃ rule, i.rule = .ok rule ∧
      (i.encode? operands = none ↔
        (∃ index, (operands.rs1 = some index ∨ operands.rs2 = some index ∨
          operands.rd = some index) ∧ 32 ≤ index) ∨
        ∃ value, operands.imm = some value ∧
          (rule.immediate = .absent ∨ rule.immediate.fits value = false)) ∧
      ∀ w, i.encode? operands = some w → w &&& i.mask = i.value ∧
        ∃ d, t.decode w = .ok d ∧
          (d.ordinal = n ↔ ¬ ∃ o ∈ t.overlaps, o.shadowed = n ∧ ∃ winner,
            t.instructions[o.winner]? = some winner ∧ winner.isMatch w = true) ∧
          (d.ordinal = n → rule.ReadsBack i.mask operands w d.operands) := by
  have table := Table.derivedFrom_of_ofInstructions built
  rw [table.instructions_eq] at listed ⊢
  obtain ⟨rule, derived, -⟩ := table.exists_rule listed
  refine ⟨rule, Instruction.rule_eq_ok.mpr derived,
    Instruction.encode?_eq_none_iff_exists derived, fun w encoded => ?_⟩
  have carried := Instruction.isMatch_of_encode? derived encoded
  obtain ⟨d, decoded⟩ :=
    table.exists_decode_of_isMatch (List.mem_of_getElem? listed) carried
  refine ⟨Instruction.isMatch_iff.mp carried, d, decoded,
    table.decode_ordinal_eq_iff listed carried decoded, fun same => ?_⟩
  obtain ⟨j, rule', wins, derived', read⟩ := table.decode_eq_ok_iff.mp decoded
  rw [same] at wins
  obtain rfl := Option.some.inj (listed.symm.trans wins.listed)
  obtain rfl := Option.some.inj (derived.symm.trans derived')
  rw [read]
  exact Instruction.readsBack_of_encode? derived encoded

/-- A branch comes back with its registers and its offset. -/
theorem decode_encoded_branch : ∃ t w d,
    Table.ofInstructions .specificity Overlapping.instructions = .ok t ∧
      t.instructions[2]? = some Overlapping.beq ∧
      Overlapping.beq.encode? { rs1 := some 3, rs2 := some 4, imm := some (-8) } = some w ∧
      t.decode w = .ok d ∧ d.operands.rs1 = some 3 ∧ d.operands.imm = some (-8) := by
  obtain ⟨t, built⟩ := Overlapping.exists_table
  have table := Table.derivedFrom_of_ofInstructions built
  have listed : t.instructions[2]? = some Overlapping.beq := by rw [table.instructions_eq]; rfl
  obtain ⟨rule, derived, -, back⟩ := decode_encoded built listed
    { rs1 := some 3, rs2 := some 4, imm := some (-8) }
  have encoded : Overlapping.beq.encode? { rs1 := some 3, rs2 := some 4, imm := some (-8) } =
      some 0xfe418ce3 := by decide
  obtain ⟨-, d, decoded, own, readsBack⟩ := back _ encoded
  have ordinal : d.ordinal = 2 := by
    refine own.mpr ?_
    rintro ⟨o, overlap, shadowed, -⟩
    obtain ⟨a, b, listedA, listedB, before, agree, -⟩ := table.mem_overlaps_iff.mp overlap
    rw [shadowed] at listedB
    obtain rfl : Overlapping.beq = b := Option.some.inj listedB
    have apart : ∀ a ∈ Overlapping.instructions,
        TrialOrder.specificity.Before a.mask Overlapping.beq.mask →
          Table.agree a Overlapping.beq = false := by decide
    rw [apart a (List.mem_of_getElem? listedA) before] at agree
    cases agree
  obtain rfl : ⟨true, true, false, .b⟩ = rule := by
    have branch : Overlapping.beq.rule = .ok ⟨true, true, false, .b⟩ := by decide
    exact Except.ok.inj (branch.symm.trans derived)
  have same := readsBack ordinal
  exact ⟨t, _, d, built, listed, encoded, decoded, same.rs1 rfl (by decide),
    same.imm (by decide) (by decide) (by decide)⟩

/-- What is decoded can be encoded again, and gives the bits of the word that are literal or read by
some slot. These are all bits, unless the instruction has a field that no slot reads. -/
theorem encode_decoded {order : TrialOrder} {instructions : List Instruction} {t : Table}
    (built : Table.ofInstructions order instructions = .ok t) {raw : Word} {d : Decoded}
    (decoded : t.decode raw = .ok d) :
    ∃ i rule, t.instructions[d.ordinal]? = some i ∧ i.rule = .ok rule ∧
      i.encode? d.operands = some (raw &&& (i.mask ||| rule.bits)) ∧
      ((∀ f ∈ [Field.rs3, .rm, .aq, .rl], f ∉ i.fields) → i.encode? d.operands = some raw) := by
  have table := Table.derivedFrom_of_ofInstructions built
  rw [table.instructions_eq]
  obtain ⟨i, rule, wins, derived, read⟩ := table.decode_eq_ok_iff.mp decoded
  have encoded : i.encode? d.operands = some (raw &&& (i.mask ||| rule.bits)) := by
    rw [read, Instruction.encode?_eq_some_iff derived]
    exact ⟨rule.accepts_extract raw, Instruction.and_or_bits wins.isMatch⟩
  refine ⟨i, rule, wins.listed, Instruction.rule_eq_ok.mpr derived, encoded, fun allRead => ?_⟩
  rw [encoded, Instruction.mask_or_bits derived allRead, BitVec.and_allOnes]

/-- A branch is encoded as the word that it was read from. -/
theorem encode_decoded_branch : ∃ t d,
    Table.ofInstructions .specificity Overlapping.instructions = .ok t ∧
      t.decode 0xfe418ce3 = .ok d ∧
      Overlapping.beq.encode? d.operands = some 0xfe418ce3 := by
  obtain ⟨t, built⟩ := Overlapping.exists_table
  have table := Table.derivedFrom_of_ofInstructions built
  have decoded := Overlapping.decode_beq table
  obtain ⟨i, rule, listed, -, -, lossless⟩ := encode_decoded built decoded
  rw [table.instructions_eq] at listed
  obtain rfl : Overlapping.beq = i := Option.some.inj listed
  exact ⟨t, _, built, decoded, lossless (by decide)⟩

end DecodeTables
