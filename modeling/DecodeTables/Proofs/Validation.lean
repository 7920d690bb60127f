import DecodeTables.Proofs.Table

/-!
# What makes an instruction

`Instruction.Sound` says of the parts of an instruction, character by character and bit by bit, that
they fit together. The checks of `Instruction.ofEncoding` let through just the sound ones
(`Instruction.exists_ofEncoding_iff`). A word then matches an instruction if it has the literal bits
of the encoding (`Instruction.isMatch_iff_encoding`), and the encoding can be told from the mask and
the literal bits (`ofEncoding_exact`).
-/

namespace DecodeTables

namespace Instruction

/-- The parts of an instruction that fit together. -/
structure Sound (id encoding : String) (mask value : Word) (fields : List Field) : Prop where
  id_ne : id ≠ ""
  denotes : Encoding.Denotes encoding mask value
  /-- The last seven characters are literal. -/
  opcode_literal : ∀ k c, 25 ≤ k → encoding.toList[k]? = some c → c ≠ '-'
  /-- The fields cover all bits that are not literal, and no other. -/
  union_fields : Field.union fields = ~~~mask

variable {id encoding : String} {mask value : Word} {fields : List Field} {i j : Instruction}

/-- The opcode is in the last seven characters. -/
theorem opcode_literal_iff (denotes : Encoding.Denotes encoding mask value) :
    mask &&& Word.opcodeMask = Word.opcodeMask ↔
      ∀ k c, 25 ≤ k → encoding.toList[k]? = some c → c ≠ '-' := by
  have range : Word.opcodeMask = Word.span 6 0 := by decide
  rw [BitVec.and_comm, Word.and_eq_left_iff]
  simp only [range, Word.getLsbD_span _ (by decide : 0 ≤ 6) (by decide : 6 < 32), decide_eq_true_eq]
  constructor
  · intro literal k c behind held
    exact (denotes.mask_iff k c held).mp (literal (31 - k) ⟨Nat.zero_le _, by omega⟩)
  · intro literal k low
    obtain ⟨c, held, bit, -⟩ := denotes.exists_char (show k < 32 by omega)
    exact bit.mpr (literal _ c (by omega) held)

theorem denotes (i : Instruction) : Encoding.Denotes i.encoding i.mask i.value :=
  Encoding.denotes_of_read i.read_encoding

/-- Sound parts are accepted, and no others. -/
theorem exists_ofEncoding_iff : (∃ i, ofEncoding id encoding mask value fields = .ok i) ↔
    Sound id encoding mask value fields := by
  constructor
  · rintro ⟨i, accepted⟩
    obtain ⟨rfl, rfl, rfl, rfl, set⟩ := parts_of_ofEncoding accepted
    refine ⟨i.id_ne, i.denotes, (opcode_literal_iff i.denotes).mp i.opcode_literal, ?_⟩
    rw [← Field.union_normalize, ← set]
    exact i.union_fields
  · intro sound
    have idempotent : Field.normalize (Field.normalize fields) = Field.normalize fields :=
      Field.normalize_congr fun _ => Field.mem_normalize
    have accepted := ofEncoding_self {
      id, encoding, mask, value
      fields := Field.normalize fields
      extensions := []
      id_ne := sound.id_ne
      read_encoding := Encoding.read_eq_ok_iff.mpr sound.denotes
      opcode_literal := (opcode_literal_iff sound.denotes).mpr sound.opcode_literal
      fields_normal := idempotent
      union_fields := (Field.union_normalize fields).trans sound.union_fields }
    exact ⟨_, (ofEncoding_congr idempotent.symm).trans accepted⟩

/-- A word matches if it has the bit of each literal character. -/
theorem isMatch_iff_encoding {raw : Word} : i.isMatch raw = true ↔
    ∀ k c, i.encoding.toList[k]? = some c → c ≠ '-' → (raw.getLsbD (31 - k) = true ↔ c = '1') := by
  have bits : i.isMatch raw = true ↔
      ∀ k < 32, (raw.getLsbD k && i.mask.getLsbD k) = i.value.getLsbD k := by
    rw [isMatch_iff]
    constructor
    · intro carried k _
      rw [← carried, BitVec.getLsbD_and]
    · exact fun same => BitVec.eq_of_getLsbD_eq fun k bound => by
        rw [BitVec.getLsbD_and, same k bound]
  rw [bits]
  constructor
  · intro same k c held literal
    have bit := same (31 - k) (by omega)
    rw [(i.denotes.mask_iff k c held).mpr literal, Bool.and_true] at bit
    rw [bit, i.denotes.value_iff k c held]
  · intro carried k bound
    obtain ⟨c, held, literal, one⟩ := i.denotes.exists_char bound
    have own := carried _ c held
    rw [show 31 - (31 - k) = k by omega] at own
    cases free : i.mask.getLsbD k with
    | true => rw [Bool.and_true, Bool.eq_iff_iff, one, own (literal.mp free)]
    | false =>
      have within := Word.and_eq_left_iff.mp i.value_within k
      rw [free] at within
      rw [Bool.and_false, eq_comm, Bool.eq_false_iff]
      exact fun set => Bool.false_ne_true (within set)

/-- Instructions with the same mask and the same literal bits are written alike. -/
theorem encoding_eq_of_key (mask : i.mask = j.mask) (value : i.value = j.value) :
    i.encoding = j.encoding :=
  i.denotes.text_unique (mask ▸ value ▸ j.denotes)

end Instruction

/-- An identifier, an encoding, a mask, literal bits and a list of fields make an instruction
exactly if they are sound. A word matches the instruction exactly if it has the bit of every literal
character, and instructions with the same mask and the same literal bits have the same encoding. -/
theorem ofEncoding_exact (id encoding : String) (mask value : Word) (fields : List Field) :
    ((∃ i, Instruction.ofEncoding id encoding mask value fields = .ok i) ↔
      Instruction.Sound id encoding mask value fields) ∧
    ∀ i, Instruction.ofEncoding id encoding mask value fields = .ok i →
      (i.id = id ∧ i.encoding = encoding ∧ i.mask = mask ∧ i.value = value ∧
        i.fields = Field.normalize fields) ∧
      (∀ raw : Word, i.isMatch raw = true ↔ ∀ k c, encoding.toList[k]? = some c → c ≠ '-' →
        (raw.getLsbD (31 - k) = true ↔ c = '1')) ∧
      ∀ (id' encoding' : String) (mask' value' : Word) (fields' : List Field) (j : Instruction),
        Instruction.ofEncoding id' encoding' mask' value' fields' = .ok j →
          mask = mask' → value = value' → encoding = encoding' := by
  refine ⟨Instruction.exists_ofEncoding_iff, fun i accepted => ?_⟩
  obtain ⟨rfl, rfl, rfl, rfl, set⟩ := Instruction.parts_of_ofEncoding accepted
  refine ⟨⟨rfl, rfl, rfl, rfl, set⟩, fun _ => Instruction.isMatch_iff_encoding, ?_⟩
  intro _ _ _ _ _ j accepted' sameMask sameValue
  obtain ⟨-, rfl, rfl, rfl, -⟩ := Instruction.parts_of_ofEncoding accepted'
  exact Instruction.encoding_eq_of_key sameMask sameValue

/-- A branch is accepted with its fields in another order and one of them twice. Its words have
bit 6 set, since there is a `1` in the encoding. -/
theorem ofEncoding_exact_branch : ∃ i,
    Instruction.ofEncoding "beq" "-----------------000-----1100011" 0x707f 0x63
      [.bimm12lo, .rs2, .rs1, .rs2, .bimm12hi] = .ok i ∧
    ∀ raw : Word, i.isMatch raw = true → raw.getLsbD 6 = true := by
  have denotes := Overlapping.beq.denotes
  obtain ⟨exact, means⟩ := ofEncoding_exact "beq" "-----------------000-----1100011" 0x707f 0x63
    [.bimm12lo, .rs2, .rs1, .rs2, .bimm12hi]
  obtain ⟨i, accepted⟩ := exact.mpr ⟨by decide, denotes,
    (Instruction.opcode_literal_iff denotes).mp Overlapping.beq.opcode_literal, by decide⟩
  refine ⟨i, accepted, fun raw carried => ?_⟩
  obtain ⟨-, matches_iff, -⟩ := means i accepted
  exact ((matches_iff raw).mp carried 25 '1' (by decide) (by decide)).mpr rfl

end DecodeTables
