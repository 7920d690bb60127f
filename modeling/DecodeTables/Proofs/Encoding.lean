import DecodeTables.Encoding
import DecodeTables.Proofs.Except
import DecodeTables.Proofs.Word
import Mathlib.Data.String.Basic

/-!
# What an encoding denotes

`Encoding.Denotes` says by position what mask and what literal bits a text of 32 characters stands
for. Reading a text takes one character after the other and moves up the bits that it has
(`Encoding.bits_of_step`), so what it leaves is what the text denotes (`Encoding.read_eq_ok_iff`). A
text denotes one mask and one word at most, and no two texts denote the same ones.
-/

namespace DecodeTables.Encoding

/-- The characters of encodings. -/
def alphabet : List Char := ['0', '1', '-']

/-- The characters of a text stand for the bits from the highest to the lowest: each but `-` for a
literal bit, and `1` for a literal bit that is set. -/
structure Denotes (text : String) (mask value : Word) : Prop where
  length_eq : text.toList.length = 32
  legal : ∀ c ∈ text.toList, c ∈ alphabet
  mask_iff : ∀ k c, text.toList[k]? = some c → (mask.getLsbD (31 - k) = true ↔ c ≠ '-')
  value_iff : ∀ k c, text.toList[k]? = some c → (value.getLsbD (31 - k) = true ↔ c = '1')

variable {text text' : String} {mask value mask' value' : Word} {bits bits' : Word × Word}
  {c : Char} {k : Nat}

/-! ## Reading -/

theorem exists_step_iff : (∃ bits', step bits c = .ok bits') ↔ c ∈ alphabet := by
  unfold step alphabet
  split <;> simp_all

/-- A step makes the character the lowest bit, and every other bit comes from the one below. -/
theorem bits_of_step (stepped : step bits c = .ok bits') (bound : k < 32) :
    bits'.1.getLsbD k = (if k = 0 then c != '-' else bits.1.getLsbD (k - 1)) ∧
      bits'.2.getLsbD k = (if k = 0 then c == '1' else bits.2.getLsbD (k - 1)) := by
  unfold step at stepped
  split at stepped <;> cases stepped
  all_goals
    cases k with
    | zero => simp
    | succ k => simp [bound, BitVec.getLsbD_eq_getElem (Nat.lt_of_succ_lt bound)]

/-- Bits that stand for characters, the last character for the lowest bit. -/
structure Spelled (chars : List Char) (bits : Word × Word) : Prop where
  legal : ∀ c ∈ chars, c ∈ alphabet
  mask_eq : ∀ k < 32, bits.1.getLsbD k = chars.reverse[k]?.any (· != '-')
  value_eq : ∀ k < 32, bits.2.getLsbD k = chars.reverse[k]?.any (· == '1')

theorem spelled_nil : Spelled [] (0, 0) where
  legal _ member := absurd member List.not_mem_nil
  mask_eq _ _ := BitVec.getLsbD_zero
  value_eq _ _ := BitVec.getLsbD_zero

theorem Spelled.step {chars : List Char} (spelled : Spelled chars bits)
    (stepped : step bits c = .ok bits') : Spelled (chars ++ [c]) bits' where
  legal := by
    rw [List.forall_mem_append, List.forall_mem_singleton]
    exact ⟨spelled.legal, exists_step_iff.mp ⟨_, stepped⟩⟩
  mask_eq k bound := by
    rw [(bits_of_step stepped bound).1, List.reverse_append]
    cases k with
    | zero => rfl
    | succ k => exact spelled.mask_eq k (Nat.lt_of_succ_lt bound)
  value_eq k bound := by
    rw [(bits_of_step stepped bound).2, List.reverse_append]
    cases k with
    | zero => rfl
    | succ k => exact spelled.value_eq k (Nat.lt_of_succ_lt bound)

/-- Every character of an encoding takes one byte. -/
theorem utf8ByteSize_eq_length (legal : ∀ c ∈ text.toList, c ∈ alphabet) :
    text.utf8ByteSize = text.toList.length := by
  rw [← String.utf8Len_toList]
  generalize text.toList = chars at legal
  induction chars with
  | nil => rfl
  | cons c rest ih =>
    rw [List.forall_mem_cons] at legal
    have single : ∀ c ∈ alphabet, c.utf8Size = 1 := by
      rw [alphabet, List.forall_mem_cons, List.forall_mem_cons, List.forall_mem_singleton]
      decide
    rw [String.utf8Len_cons, List.length_cons, ih legal.2, single c legal.1]

/-- What a text spells is what its places stand for, if there is one for each bit. -/
theorem Spelled.denotes (spelled : Spelled text.toList bits) (length : text.toList.length = 32) :
    Denotes text bits.1 bits.2 := by
  have mirrored {k : Nat} {c : Char} (place : text.toList[k]? = some c) :
      text.toList.reverse[31 - k]? = some c ∧ 31 - k < 32 := by
    have bound : k < text.toList.length := (List.getElem?_eq_some_iff.mp place).1
    rw [List.getElem?_reverse (by omega), ← place]
    exact ⟨congrArg _ (by omega), by omega⟩
  refine ⟨length, spelled.legal, fun k c place => ?_, fun k c place => ?_⟩
  · obtain ⟨mirror, bound⟩ := mirrored place
    rw [spelled.mask_eq _ bound, mirror]
    exact bne_iff_ne
  · obtain ⟨mirror, bound⟩ := mirrored place
    rw [spelled.value_eq _ bound, mirror]
    exact beq_iff_eq

theorem denotes_of_read (run : read text = .ok (mask, value)) : Denotes text mask value := by
  unfold read at run
  split at run
  · rename_i size
    have spelled : Spelled text.toList (mask, value) :=
      foldlM_invariant Spelled spelled_nil (fun _ _ _ _ => Spelled.step) run
    exact spelled.denotes ((utf8ByteSize_eq_length spelled.legal).symm.trans size)
  · cases run

/-- Each bit comes from a character. -/
theorem Denotes.exists_char (denotes : Denotes text mask value) (bound : k < 32) :
    ∃ c, text.toList[31 - k]? = some c ∧ (mask.getLsbD k = true ↔ c ≠ '-') ∧
      (value.getLsbD k = true ↔ c = '1') := by
  obtain ⟨c, held⟩ : ∃ c, text.toList[31 - k]? = some c :=
    ⟨_, List.getElem?_eq_getElem (by rw [denotes.length_eq]; omega)⟩
  have literal := denotes.mask_iff _ c held
  have one := denotes.value_iff _ c held
  rw [show 31 - (31 - k) = k by omega] at literal one
  exact ⟨c, held, literal, one⟩

/-- A bit is set only where it is literal. -/
theorem within_of_read (run : read text = .ok (mask, value)) : value &&& mask = value := by
  rw [Word.and_eq_left_iff]
  intro k set
  obtain ⟨c, -, literal, one⟩ := (denotes_of_read run).exists_char (BitVec.lt_of_getLsbD set)
  rw [literal, one.mp set]
  decide

/-! ## Uniqueness -/

/-- Bits are determined by the characters. -/
theorem Denotes.bits_unique (first : Denotes text mask value)
    (second : Denotes text mask' value') : mask = mask' ∧ value = value' := by
  have bit {k : Nat} (bound : k < 32) :
      mask.getLsbD k = mask'.getLsbD k ∧ value.getLsbD k = value'.getLsbD k := by
    obtain ⟨c, held, literal, one⟩ := first.exists_char bound
    obtain ⟨c', held', literal', one'⟩ := second.exists_char bound
    obtain rfl := Option.some.inj (held.symm.trans held')
    exact ⟨Bool.eq_iff_iff.mpr (literal.trans literal'.symm),
      Bool.eq_iff_iff.mpr (one.trans one'.symm)⟩
  exact ⟨BitVec.eq_of_getLsbD_eq fun _ bound => (bit bound).1,
    BitVec.eq_of_getLsbD_eq fun _ bound => (bit bound).2⟩

/-- Of the three characters one is not literal, and one is a bit that is set. -/
theorem eq_of_mem_alphabet {c c' : Char} (legal : c ∈ alphabet) (legal' : c' ∈ alphabet)
    (literal : c ≠ '-' ↔ c' ≠ '-') (one : c = '1' ↔ c' = '1') : c = c' := by
  simp only [alphabet, List.mem_cons, List.not_mem_nil, or_false] at legal legal'
  rcases legal with rfl | rfl | rfl <;> rcases legal' with rfl | rfl | rfl <;> simp_all

/-- Characters are determined by the bits. -/
theorem Denotes.text_unique (first : Denotes text mask value) (second : Denotes text' mask value) :
    text = text' := by
  refine String.toList_injective (List.ext_getElem (first.length_eq.trans second.length_eq.symm) ?_)
  intro k bound bound'
  have place := List.getElem?_eq_getElem bound
  have place' := List.getElem?_eq_getElem bound'
  exact eq_of_mem_alphabet (first.legal _ (List.getElem_mem bound))
    (second.legal _ (List.getElem_mem bound'))
    ((first.mask_iff k _ place).symm.trans (second.mask_iff k _ place'))
    ((first.value_iff k _ place).symm.trans (second.value_iff k _ place'))

/-- A text is read as the mask and the literal bits that it denotes, and refused if it denotes
none. -/
theorem read_eq_ok_iff : read text = .ok (mask, value) ↔ Denotes text mask value := by
  refine ⟨denotes_of_read, fun denotes => ?_⟩
  have size : text.utf8ByteSize = wordBits :=
    (utf8ByteSize_eq_length denotes.legal).trans denotes.length_eq
  obtain ⟨bits, run⟩ : ∃ bits, text.toList.foldlM step (0, 0) = .ok bits := by
    refine exists_foldlM (fun _ _ => True) trivial (fun _ _ _ _ _ _ => trivial) ?_
    intro done c rest _ split _
    exact exists_step_iff.mpr (denotes.legal c (split ▸ List.mem_append_cons_self))
  have run : read text = .ok bits := by rw [read, if_pos size, run]
  obtain ⟨rfl, rfl⟩ := denotes.bits_unique (denotes_of_read run)
  exact run

end DecodeTables.Encoding
