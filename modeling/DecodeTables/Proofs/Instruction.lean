import DecodeTables.Instruction
import DecodeTables.Proofs.Encoding
import DecodeTables.Proofs.Operands

/-!
# Sound instructions

What the proofs in an `Instruction` say about its words. The literal bits lie under the mask
(`value_within`), a word that matches has the instruction's opcode (`opcode_of_isMatch`), and the
declared fields are the bits that are not literal (`getLsbD_union`). The slots of the rule
cover every declared field apart from the few that no slot reads (`mask_or_bits`).
-/

namespace DecodeTables

namespace Field

theorem getLsbD_union {fields : List Field} {k : Nat} :
    (union fields).getLsbD k = true ↔ ∃ f ∈ fields, f.mask.getLsbD k = true := by
  have general (start : Word) : (fields.foldl (fun bits f => bits ||| f.mask) start).getLsbD k =
      true ↔ start.getLsbD k = true ∨ ∃ f ∈ fields, f.mask.getLsbD k = true := by
    induction fields generalizing start with
    | nil => simp
    | cons f rest ih => simp [ih, or_assoc]
  rw [union, general]
  simp

theorem normalize_congr {fields others : List Field} (same : ∀ f, f ∈ fields ↔ f ∈ others) :
    normalize fields = normalize others := by
  refine List.filter_congr fun f _ => ?_
  rw [Bool.eq_iff_iff, List.contains_iff_mem, List.contains_iff_mem, same]

/-- Listing fields in another order or repeatedly adds no bits. -/
theorem union_normalize (fields : List Field) : union (normalize fields) = union fields := by
  refine BitVec.eq_of_getLsbD_eq fun k _ => ?_
  rw [Bool.eq_iff_iff, getLsbD_union, getLsbD_union]
  simp only [mem_normalize]

end Field

namespace Immediate

/-- The layout of a set of fields is that of each field that is a part of an immediate. -/
theorem eq_of_ofField? {fields : List Field} {layout part : Immediate} {f : Field}
    (chosen : ofFields? fields = some layout) (declared : f ∈ fields)
    (isPart : ofField? f = some part) : part = layout := by
  have listed : part ∈ (fields.filterMap ofField?).eraseDups :=
    List.mem_eraseDups.mpr (List.mem_filterMap.mpr ⟨f, declared, isPart⟩)
  unfold ofFields? at chosen
  split at chosen
  case h_1 none => simp [none] at listed
  case h_2 sole only =>
    rw [only, List.mem_singleton] at listed
    split at chosen
    · exact listed.trans (Option.some.inj chosen)
    · cases chosen
  case h_3 => cases chosen

/-- The layout of a field reads all bits of the field. -/
theorem mask_within_bits {f : Field} {layout : Immediate} (isPart : ofField? f = some layout) :
    f.mask &&& layout.bits = f.mask := by
  cases f <;> cases isPart <;> decide

end Immediate

namespace Rule

theorem ofFields?_eq_some {fields : List Field} {rule : Rule} :
    ofFields? fields = some rule ↔
      Immediate.ofFields? fields = some rule.immediate ∧
        rule.rs1 = (fields.contains .rs1 || fields.contains .zimm) ∧
        rule.rs2 = fields.contains .rs2 ∧ rule.rd = fields.contains .rd := by
  unfold ofFields?
  rw [Option.map_eq_some_iff]
  constructor
  · rintro ⟨layout, chosen, rfl⟩
    exact ⟨chosen, rfl, rfl, rfl⟩
  · rintro ⟨chosen, rs1, rs2, rd⟩
    refine ⟨rule.immediate, chosen, ?_⟩
    rw [← rs1, ← rs2, ← rd]

/-- The fields that no slot reads. -/
def unread : List Field := [.rs3, .rm, .aq, .rl]

/-- Every other field lies in some slot of the rule. -/
theorem mask_within_bits {fields : List Field} {rule : Rule} {f : Field}
    (derived : ofFields? fields = some rule) (declared : f ∈ fields) (isRead : f ∉ unread) :
    f.mask &&& rule.bits = f.mask := by
  obtain ⟨chosen, rs1, rs2, rd⟩ := ofFields?_eq_some.mp derived
  have slot (slot : Slot) (within : f.mask &&& rule.slotBits slot = f.mask) :
      f.mask &&& rule.bits = f.mask := by
    rw [Word.and_eq_left_iff] at within ⊢
    exact fun k set => getLsbD_bits.mpr ⟨slot, within k set⟩
  cases part : Immediate.ofField? f with
  | some layout =>
    refine slot .immediate ?_
    rw [slotBits, ← Immediate.eq_of_ofField? chosen declared part]
    exact Immediate.mask_within_bits part
  | none =>
    have contained := List.contains_iff_mem.mpr declared
    cases f with
    | rd =>
      refine slot .rd ?_
      rw [slotBits, rd, contained]
      decide
    | rs1 =>
      refine slot .rs1 ?_
      rw [slotBits, rs1, contained, Bool.true_or]
      decide
    | rs2 =>
      refine slot .rs2 ?_
      rw [slotBits, rs2, contained]
      decide
    | zimm =>
      refine slot .rs1 ?_
      rw [slotBits, rs1, contained, Bool.or_true]
      decide
    | rs3 | rm | aq | rl => exact absurd (by decide) isRead
    | _ => cases part

/-- A register slot that is used lies in the bits of a declared field. -/
theorem registerBits_within_union {fields : List Field} {rule : Rule}
    (derived : ofFields? fields = some rule) {slot : Slot} (register : slot ≠ .immediate) :
    rule.slotBits slot &&& Field.union fields = rule.slotBits slot := by
  obtain ⟨-, rs1, rs2, rd⟩ := ofFields?_eq_some.mp derived
  have within (f : Field) (declared : f ∈ fields) (same : rule.slotBits slot = f.mask) :
      rule.slotBits slot &&& Field.union fields = rule.slotBits slot := by
    rw [Word.and_eq_left_iff, same]
    exact fun k set => Field.getLsbD_union.mpr ⟨f, declared, set⟩
  have unused (shift : Nat) (same : rule.slotBits slot = registerBits false shift) :
      rule.slotBits slot &&& Field.union fields = rule.slotBits slot := by
    rw [same]
    exact BitVec.zero_and
  cases slot with
  | rs1 =>
    cases used : rule.rs1 with
    | false => exact unused 15 (by rw [slotBits, used])
    | true =>
      rw [used, eq_comm, Bool.or_eq_true, List.contains_iff_mem, List.contains_iff_mem] at rs1
      rcases rs1 with declared | declared
      · exact within .rs1 declared (by rw [slotBits, used]; rfl)
      · exact within .zimm declared (by rw [slotBits, used]; rfl)
  | rs2 =>
    cases used : rule.rs2 with
    | false => exact unused 20 (by rw [slotBits, used])
    | true =>
      rw [used, eq_comm, List.contains_iff_mem] at rs2
      exact within .rs2 rs2 (by rw [slotBits, used]; rfl)
  | rd =>
    cases used : rule.rd with
    | false => exact unused 7 (by rw [slotBits, used])
    | true =>
      rw [used, eq_comm, List.contains_iff_mem] at rd
      exact within .rd rd (by rw [slotBits, used]; rfl)
  | immediate => exact absurd rfl register

/-- Operands that can be encoded: every register exists, used or not, and the immediate fits. -/
structure Accepts (rule : Rule) (operands : Operands) : Prop where
  register_lt : ∀ register ∈ [operands.rs1, operands.rs2, operands.rd], ∀ index,
    register = some index → index < registerCount
  imm_fits : ∀ value, operands.imm = some value → rule.immediate.fits value = true

theorem accepts_iff {rule : Rule} {operands : Operands} : rule.Accepts operands ↔
    ([operands.rs1, operands.rs2, operands.rd].all (·.all (· < registerCount)) &&
      operands.imm.all rule.immediate.fits) = true := by
  simp only [Bool.and_eq_true, List.all_eq_true, Option.all_eq_true, decide_eq_true_eq]
  exact ⟨fun accepted => ⟨accepted.register_lt, accepted.imm_fits⟩, fun h => ⟨h.1, h.2⟩⟩

/-- What is read from a word can be encoded. -/
theorem accepts_extract (rule : Rule) (w : Word) : rule.Accepts (rule.extract w) where
  register_lt := by
    have register (used : Bool) (shift index : Nat)
        (read : (if used then some (w.extractLsb' shift 5).toNat else none) = some index) :
        index < registerCount := by
      cases used with
      | false => cases read
      | true => exact Option.some.inj read ▸ (w.extractLsb' shift 5).isLt
    simp only [List.mem_cons, List.not_mem_nil, or_false, forall_eq_or_imp, forall_eq]
    exact ⟨register rule.rs1 15, register rule.rs2 20, register rule.rd 7⟩
  imm_fits _ decoded := Immediate.fits_of_decode? decoded

end Rule

/-! ## Words of an instruction -/

namespace Instruction

variable {instruction other : Instruction} {raw w : Word} {rule : Rule} {operands : Operands}

/-- The parts of every instruction are accepted, so what is said of all instructions is said of just
those that are. -/
theorem ofEncoding_self (i : Instruction) :
    ofEncoding i.id i.encoding i.mask i.value i.fields = .ok { i with extensions := [] } := by
  unfold ofEncoding
  dsimp only
  rw [dif_neg i.id_ne]
  split
  · rename_i fault read
    cases i.read_encoding.symm.trans read
  · rename_i literal bits read
    obtain ⟨rfl, rfl⟩ := Prod.mk.inj (Except.ok.inj (i.read_encoding.symm.trans read))
    have declared : Field.union (Field.normalize i.fields) = ~~~i.mask := by
      rw [i.fields_normal, i.union_fields]
    have disjoint : Field.union (Field.normalize i.fields) &&& i.mask = 0 := by
      rw [declared, BitVec.and_comm]
      exact BitVec.and_not_self _
    have cover : Field.union (Field.normalize i.fields) ||| i.mask = BitVec.allOnes 32 := by
      rw [declared, BitVec.or_comm]
      exact BitVec.or_not_self _
    rw [dif_neg (not_not.mpr i.opcode_literal), dif_neg (not_not.mpr rfl),
      dif_neg (not_not.mpr rfl), dif_neg (not_not.mpr disjoint), dif_neg (not_not.mpr cover)]
    congr
    exact i.fields_normal

/-- What is accepted are the parts as they were given, with the fields as a set. -/
theorem parts_of_ofEncoding {id encoding : String} {mask value : Word} {fields : List Field}
    (accepted : ofEncoding id encoding mask value fields = .ok instruction) :
    instruction.id = id ∧ instruction.encoding = encoding ∧ instruction.mask = mask ∧
      instruction.value = value ∧ instruction.fields = Field.normalize fields := by
  unfold ofEncoding at accepted
  dsimp only at accepted
  repeat' split at accepted
  all_goals cases accepted
  exact ⟨rfl, rfl, rfl, rfl, rfl⟩

/-- Fields are taken as a set. -/
theorem ofEncoding_congr {id encoding : String} {mask value : Word} {fields others : List Field}
    (same : Field.normalize fields = Field.normalize others) :
    ofEncoding id encoding mask value fields = ofEncoding id encoding mask value others := by
  unfold ofEncoding
  simp only [same]

theorem isMatch_iff : instruction.isMatch raw = true ↔ raw &&& instruction.mask = instruction.value :=
  beq_iff_eq

theorem value_within (instruction : Instruction) :
    instruction.value &&& instruction.mask = instruction.value :=
  Encoding.within_of_read instruction.read_encoding

theorem mask_ne_zero (instruction : Instruction) : instruction.mask ≠ 0 :=
  Word.ne_zero_of_opcode instruction.opcode_literal

theorem opcode_lt (instruction : Instruction) : instruction.opcode < opcodeCount :=
  Word.opcode_lt instruction.value

/-- A word that matches is looked up under the opcode of the instruction. -/
theorem opcode_of_isMatch (carried : instruction.isMatch raw = true) :
    instruction.opcode = raw.opcode :=
  Word.opcode_eq_of_and_eq instruction.opcode_literal (isMatch_iff.mp carried)

/-- A bit is literal or lies in a declared field, and never both. -/
theorem getLsbD_union (instruction : Instruction) {k : Nat} (bound : k < 32) :
    (Field.union instruction.fields).getLsbD k = !instruction.mask.getLsbD k := by
  rw [instruction.union_fields, BitVec.getLsbD_not, decide_eq_true bound, Bool.true_and]

/-- A register slot holds no literal bit. -/
theorem mask_of_register (derived : Rule.ofFields? instruction.fields = some rule) {slot : Slot}
    (register : slot ≠ .immediate) {k : Nat} (own : (rule.slotBits slot).getLsbD k = true) :
    instruction.mask.getLsbD k = false := by
  have declared := Word.and_eq_left_iff.mp (Rule.registerBits_within_union derived register) k own
  rw [getLsbD_union instruction (BitVec.lt_of_getLsbD own), Bool.not_eq_true'] at declared
  exact declared

/-- If a slot reads every declared field, every bit is literal or in a slot. -/
theorem mask_or_bits (derived : Rule.ofFields? instruction.fields = some rule)
    (allRead : ∀ f ∈ Rule.unread, f ∉ instruction.fields) :
    instruction.mask ||| rule.bits = BitVec.allOnes 32 := by
  refine BitVec.eq_of_getLsbD_eq fun k bound => ?_
  rw [BitVec.getLsbD_or, BitVec.getLsbD_allOnes, decide_eq_true bound]
  cases literal : instruction.mask.getLsbD k with
  | true => rfl
  | false =>
    have covered := getLsbD_union instruction bound
    rw [literal, Bool.not_false, Field.getLsbD_union] at covered
    obtain ⟨f, declared, set⟩ := covered
    have within := Rule.mask_within_bits derived declared fun unread => allRead f unread declared
    rw [Word.and_eq_left_iff.mp within k set, Bool.or_true]

/-! ## Encoding -/

theorem encode?_eq_some_iff (derived : Rule.ofFields? instruction.fields = some rule) :
    instruction.encode? operands = some w ↔ rule.Accepts operands ∧
      w = instruction.value ||| rule.place operands &&& ~~~instruction.mask := by
  unfold encode?
  rw [derived, Rule.accepts_iff]
  dsimp only
  split
  · rename_i accepted
    rw [Option.some.injEq, eq_comm (a := _ ||| _)]
    exact ⟨fun same => ⟨accepted, same⟩, fun both => both.2⟩
  · rename_i refused
    exact ⟨(nomatch ·), fun both => absurd both.1 refused⟩

theorem encode?_eq_none_iff (derived : Rule.ofFields? instruction.fields = some rule) :
    instruction.encode? operands = none ↔ ¬ rule.Accepts operands := by
  rw [Option.eq_none_iff_forall_ne_some]
  constructor
  · intro refused accepted
    exact refused _ ((encode?_eq_some_iff derived).mpr ⟨accepted, rfl⟩)
  · intro refused w encoded
    exact refused ((encode?_eq_some_iff derived).mp encoded).1

variable (derived : Rule.ofFields? instruction.fields = some rule)
  (encoded : instruction.encode? operands = some w)
include derived encoded

/-- An encoded word is a word of its instruction. -/
theorem isMatch_of_encode? : instruction.isMatch w = true := by
  obtain ⟨-, rfl⟩ := (encode?_eq_some_iff derived).mp encoded
  rw [isMatch_iff]
  refine BitVec.eq_of_getLsbD_eq fun k bound => ?_
  have within := Word.and_eq_left_iff.mp instruction.value_within k
  simp only [BitVec.getLsbD_and, BitVec.getLsbD_or, BitVec.getLsbD_not]
  grind

/-- Where no bit is literal, an encoded word holds what the rule places. -/
theorem getLsbD_of_encode? {k : Nat} (free : instruction.mask.getLsbD k = false) :
    w.getLsbD k = (rule.place operands).getLsbD k := by
  obtain ⟨-, rfl⟩ := (encode?_eq_some_iff derived).mp encoded
  have within := Word.and_eq_left_iff.mp instruction.value_within k
  have bound := (rule.place operands).lt_of_getLsbD (i := k)
  simp only [BitVec.getLsbD_and, BitVec.getLsbD_or, BitVec.getLsbD_not]
  grind

end Instruction

end DecodeTables
