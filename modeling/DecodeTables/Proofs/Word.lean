import DecodeTables.Word
import Mathlib.Data.BitVec

/-!
# Bits of words

Words as sets of bits. `a &&& b = a` says that all bits of `a` are bits of `b`; `and_eq_left_iff`
reads it bit by bit. A word that carries the literal bits of a mask over the opcode has the opcode
of these bits (`opcode_eq_of_and_eq`).
-/

namespace DecodeTables.Word

theorem getLsbD_span {hi lo : Nat} (k : Nat) (ordered : lo ≤ hi) (bound : hi < 32) :
    (span hi lo).getLsbD k = decide (lo ≤ k ∧ k ≤ hi) := by
  unfold span
  simp only [BitVec.getLsbD_shiftLeft, BitVec.getLsbD_setWidth, BitVec.getLsbD_allOnes]
  rw [Bool.eq_iff_iff]
  simp only [Bool.and_eq_true, Bool.not_eq_true', decide_eq_true_eq, decide_eq_false_iff_not]
  omega

/-- One word holds no bit that another lacks. -/
theorem and_eq_left_iff {a b : Word} :
    a &&& b = a ↔ ∀ k, a.getLsbD k = true → b.getLsbD k = true := by
  constructor
  · intro within k set
    rw [← within, BitVec.getLsbD_and, Bool.and_eq_true] at set
    exact set.2
  · intro within
    refine BitVec.eq_of_getLsbD_eq fun k _ => ?_
    rw [BitVec.getLsbD_and]
    cases set : a.getLsbD k with
    | false => rfl
    | true => exact within k set

/-- Two words share no bit. -/
theorem and_eq_zero_iff {a b : Word} :
    a &&& b = 0 ↔ ∀ k, a.getLsbD k = true → b.getLsbD k = false := by
  constructor
  · intro disjoint k set
    have both := congrArg (fun w => w.getLsbD k) disjoint
    simpa [set] using both
  · intro disjoint
    refine BitVec.eq_of_getLsbD_eq fun k _ => ?_
    rw [BitVec.getLsbD_and]
    cases set : a.getLsbD k with
    | false => simp
    | true => simp [disjoint k set]

/-- Two words have the same bits under a mask. -/
theorem and_eq_and_iff {a b mask : Word} :
    a &&& mask = b &&& mask ↔ ∀ k, mask.getLsbD k = true → a.getLsbD k = b.getLsbD k := by
  constructor
  · intro same k own
    have bit := congrArg (fun w => w.getLsbD k) same
    simpa only [BitVec.getLsbD_and, own, Bool.and_true] using bit
  · intro same
    refine BitVec.eq_of_getLsbD_eq fun k _ => ?_
    rw [BitVec.getLsbD_and, BitVec.getLsbD_and]
    cases own : mask.getLsbD k with
    | false => rw [Bool.and_false, Bool.and_false]
    | true => rw [same k own]

/-! ## Inclusion -/

theorem le_of_and_eq {a b : Word} (within : a &&& b = a) : a ≤ b := by
  rw [BitVec.le_def, ← within, BitVec.toNat_and]
  exact Nat.and_le_right

/-- Of two words of which one has all bits of the other and one more, it has more bits set. -/
theorem ones_lt_of_and_eq {a b : Word} (within : a &&& b = a) (ne : a ≠ b) : a.ones < b.ones := by
  have subset := and_eq_left_iff.mp within
  obtain ⟨k, more⟩ : ∃ k, ¬ (b.getLsbD k = true → a.getLsbD k = true) := by
    by_contra none
    have same : b &&& a = b := and_eq_left_iff.mpr fun k =>
      by_contra fun more => none ⟨k, more⟩
    exact ne (within.symm.trans ((BitVec.and_comm a b).trans same))
  rw [Classical.not_imp] at more
  have bound : k ∈ List.range 32 := List.mem_range.mpr (BitVec.lt_of_getLsbD more.1)
  obtain ⟨front, back, split⟩ := List.append_of_mem bound
  have count (w : Word) :
      w.ones = front.countP w.getLsbD + (k :: back).countP w.getLsbD := by
    rw [ones, split, List.countP_append]
  have inFront : front.countP a.getLsbD ≤ front.countP b.getLsbD :=
    List.countP_mono_left fun i _ => subset i
  have inBack : back.countP a.getLsbD ≤ back.countP b.getLsbD :=
    List.countP_mono_left fun i _ => subset i
  rw [count, count, List.countP_cons_of_pos more.1, List.countP_cons_of_neg more.2]
  omega

/-! ## Opcodes -/

theorem opcode_lt (w : Word) : w.opcode < opcodeCount := by
  have bound : w.toNat &&& 127 ≤ 127 := Nat.and_le_right
  unfold opcode opcodeMask opcodeCount
  rw [BitVec.toNat_and]
  exact Nat.lt_succ_of_le bound

/-- Literal bits that include the opcode fix the opcode of every word that carries them. -/
theorem opcode_eq_of_and_eq {raw mask value : Word} (literal : mask &&& opcodeMask = opcodeMask)
    (carried : raw &&& mask = value) : value.opcode = raw.opcode := by
  unfold opcode
  rw [← carried, BitVec.and_assoc, literal]

/-- A mask over the opcode is not the zero that stands for no mask. -/
theorem ne_zero_of_opcode {mask : Word} (literal : mask &&& opcodeMask = opcodeMask) : mask ≠ 0 := by
  intro zero
  rw [zero] at literal
  exact absurd literal (by decide)

/-! ## Literal bits -/

/-- Literal bits that agree where both are literal are carried together by the word that joins
them. -/
theorem or_and_of_agree {mask value mask' value' : Word} (within : value &&& mask = value)
    (within' : value' &&& mask' = value')
    (agree : (value ^^^ value') &&& (mask &&& mask') = 0) : (value ||| value') &&& mask = value := by
  refine BitVec.eq_of_getLsbD_eq fun k _ => ?_
  have bit := and_eq_left_iff.mp within k
  have bit' := and_eq_left_iff.mp within' k
  have same := and_eq_zero_iff.mp agree k
  simp only [BitVec.getLsbD_and, BitVec.getLsbD_or, BitVec.getLsbD_xor] at same ⊢
  grind

/-- Literal bits that some word carries together agree where both are literal. -/
theorem agree_of_carried {raw mask value mask' value' : Word} (carried : raw &&& mask = value)
    (carried' : raw &&& mask' = value') : (value ^^^ value') &&& (mask &&& mask') = 0 := by
  rw [and_eq_zero_iff]
  intro k differ
  rw [← carried, ← carried'] at differ
  simp only [BitVec.getLsbD_and, BitVec.getLsbD_xor] at differ ⊢
  grind

end DecodeTables.Word
