import DecodeTables.Proofs.Overlap
import DecodeTables.Proofs.Sorting

/-!
# Nested encodings

An instruction is nested in another one if each of its words is a word of the other. Its mask then
has all bits of the other mask, so every trial order tries it first (`TrialOrder.before_of_and_eq`).
If all instructions that share a word are nested in each other, the trial order does not matter, and
a word belongs to the innermost instruction that it matches (`trialOrders_agree`).
-/

namespace DecodeTables

/-- An instruction whose words are words of another one has the literal bits of the other, too. -/
theorem Instruction.mask_within_of_nested {a b : Instruction}
    (nested : ∀ raw, a.isMatch raw = true → b.isMatch raw = true) : b.mask &&& a.mask = b.mask := by
  rw [Word.and_eq_left_iff]
  intro k literal
  by_contra free
  rw [Bool.not_eq_true] at free
  have bound := BitVec.lt_of_getLsbD literal
  have within := Word.and_eq_left_iff.mp a.value_within
  -- The bit is free in `a`, so it may be set or clear, but in `b` it can be only one of these.
  have clear : b.isMatch a.value = true := nested _ (isMatch_iff.mpr a.value_within)
  have set : b.isMatch (a.value ||| BitVec.twoPow 32 k) = true := by
    refine nested _ (isMatch_iff.mpr (BitVec.eq_of_getLsbD_eq fun l _ => ?_))
    have own := within l
    simp only [BitVec.getLsbD_and, BitVec.getLsbD_or, BitVec.getLsbD_twoPow]
    grind
  rw [isMatch_iff] at clear set
  have unset : a.value.getLsbD k = false :=
    Bool.eq_false_iff.mpr fun own => Bool.false_ne_true (free.symm.trans (within k own))
  have bit : ((a.value ||| BitVec.twoPow 32 k) &&& b.mask).getLsbD k =
      (a.value &&& b.mask).getLsbD k := by
    rw [set, clear]
  rw [BitVec.getLsbD_and, BitVec.getLsbD_and, BitVec.getLsbD_or, BitVec.getLsbD_twoPow, unset,
    literal, decide_eq_true bound, decide_eq_true rfl] at bit
  cases bit

/-- Instructions with a common word are nested: the mask of one has all bits of the other mask. -/
def Nested (instructions : List Instruction) : Prop :=
  ∀ a ∈ instructions, ∀ b ∈ instructions, ∀ raw, a.isMatch raw = true → b.isMatch raw = true →
    a.mask &&& b.mask = a.mask ∨ b.mask &&& a.mask = b.mask

/-- The literal bits of two instructions tell whether there is a common word. -/
theorem nested_iff {instructions : List Instruction} : Nested instructions ↔
    ∀ a ∈ instructions, ∀ b ∈ instructions, Table.agree a b = true →
      a.mask &&& b.mask = a.mask ∨ b.mask &&& a.mask = b.mask := by
  constructor
  · intro nested a member b member' agreeing
    obtain ⟨raw, carried, carried'⟩ := Instruction.agree_iff_exists.mp agreeing
    exact nested a member b member' raw carried carried'
  · intro nested a member b member' raw carried carried'
    exact nested a member b member' (Instruction.agree_iff_exists.mpr ⟨raw, carried, carried'⟩)

/-- The word matches this instruction, whose mask has all bits of every other mask that it matches
under. -/
structure Innermost (instructions : List Instruction) (raw : Word) (ordinal : Nat)
    (i : Instruction) : Prop where
  listed : instructions[ordinal]? = some i
  isMatch : i.isMatch raw = true
  contains : ∀ other ∈ instructions, other.isMatch raw = true → other.mask &&& i.mask = other.mask

variable {order order' : TrialOrder} {instructions : List Instruction} {raw : Word} {n : Nat}
  {i : Instruction}

/-- Among nested instructions the innermost one wins, whatever the trial order. -/
theorem Nested.wins_iff (nested : Nested instructions) :
    Wins order instructions raw n i ↔ Innermost instructions raw n i := by
  constructor
  · intro wins
    refine ⟨wins.listed, wins.isMatch, fun other member carried => ?_⟩
    have own := List.mem_of_getElem? wins.listed
    have comparable : i.mask.Comparable other.mask :=
      nested i own other member raw wins.isMatch carried
    have le : order.le i.mask other.mask = true :=
      TrialOrder.le_iff.mpr (wins.first other member carried)
    exact (TrialOrder.le_iff_of_comparable comparable).mp le
  · intro innermost
    refine ⟨innermost.listed, innermost.isMatch, fun other member carried => ?_⟩
    have inside := innermost.contains other member carried
    exact TrialOrder.le_iff.mp (TrialOrder.le_of_and_eq order inside)

namespace Table.DerivedFrom

variable {t u : Table} {d : Decoded} (table : DerivedFrom order instructions t)
  (other : DerivedFrom order' instructions u)
include table

/-- A word of a nested instruction is never read as one that it is nested in. -/
theorem ordinal_ne_of_nested {m : Nat} {a b : Instruction} (member : a ∈ instructions)
    (listed : instructions[m]? = some b)
    (nested : ∀ raw, a.isMatch raw = true → b.isMatch raw = true) (ne : a.mask ≠ b.mask)
    (carried : a.isMatch raw = true) (decoded : t.decode raw = .ok d) : d.ordinal ≠ m := by
  intro same
  obtain ⟨j, rule, wins, -, -⟩ := table.decode_eq_ok_iff.mp decoded
  obtain rfl := Option.some.inj (listed.symm.trans (same ▸ wins.listed))
  exact wins.first a member carried (TrialOrder.before_of_and_eq order
    (Instruction.mask_within_of_nested nested) ne.symm)

include other

/-- Which words are refused, and how, does not depend on the trial order. -/
theorem decode_eq_error_iff_of_orders {e : Undecoded} :
    t.decode raw = .error e ↔ u.decode raw = .error e := by
  rw [table.decode_eq_error_iff, other.decode_eq_error_iff]

/-- Words that have the same winner under two orders are read in the same way. -/
theorem decode_eq_of_wins_iff
    (same : ∀ n i, Wins order instructions raw n i ↔ Wins order' instructions raw n i) :
    t.decode raw = u.decode raw := by
  cases decoded : t.decode raw with
  | ok d =>
    obtain ⟨i, rule, wins, derived, read⟩ := table.decode_eq_ok_iff.mp decoded
    exact (other.decode_eq_ok_iff.mpr ⟨i, rule, (same _ _).mp wins, derived, read⟩).symm
  | error e => exact ((table.decode_eq_error_iff_of_orders other).mp decoded).symm

end Table.DerivedFrom

/-- Tables of the same instructions under two trial orders are both built or fail with the same
defect. They refuse the same words with the same error, and neither reads a word of a nested
instruction as one that it is nested in. Where instructions with a common word are nested, both read
every word as the innermost instruction that it matches. -/
theorem trialOrders_agree (order order' : TrialOrder) (instructions : List Instruction) :
    ((∃ t, Table.ofInstructions order instructions = .ok t) ↔
      ∃ u, Table.ofInstructions order' instructions = .ok u) ∧
    (∀ e, Table.ofInstructions order instructions = .error e ↔
      Table.ofInstructions order' instructions = .error e) ∧
    ∀ t u, Table.ofInstructions order instructions = .ok t →
      Table.ofInstructions order' instructions = .ok u →
      (∀ raw, (∃ d d', t.decode raw = .ok d ∧ u.decode raw = .ok d') ∨
        ∃ e, t.decode raw = .error e ∧ u.decode raw = .error e) ∧
      (∀ (n m : Nat) (a b : Instruction), instructions[n]? = some a → instructions[m]? = some b →
        (∀ raw, a.isMatch raw = true → b.isMatch raw = true) → a.mask ≠ b.mask →
          ∀ raw d, a.isMatch raw = true → t.decode raw = .ok d ∨ u.decode raw = .ok d →
            d.ordinal ≠ m) ∧
      (Nested instructions → ∀ raw, t.decode raw = u.decode raw ∧
        ∀ d, t.decode raw = .ok d ↔ ∃ i rule, Innermost instructions raw d.ordinal i ∧
          i.rule = .ok rule ∧ d = ⟨raw, d.ordinal, rule.extract raw⟩) := by
  refine ⟨?_, fun e => ?_, fun t u built built' => ?_⟩
  · rw [Table.exists_ofInstructions_iff, Table.exists_ofInstructions_iff]
  · rw [Table.ofInstructions_eq_map order order']
    cases Table.ofInstructions order' instructions <;> simp [Except.map]
  have table := Table.derivedFrom_of_ofInstructions built
  have other := Table.derivedFrom_of_ofInstructions built'
  refine ⟨fun raw => ?_, fun n m a b listed listed' nested ne raw d carried decoded => ?_,
    fun nested raw => ⟨?_, fun d => ?_⟩⟩
  · cases decoded : t.decode raw with
    | error e => exact .inr ⟨e, rfl, (table.decode_eq_error_iff_of_orders other).mp decoded⟩
    | ok d =>
      cases decoded' : u.decode raw with
      | ok d' => exact .inl ⟨d, d', rfl, rfl⟩
      | error e =>
        rw [(table.decode_eq_error_iff_of_orders other).mpr decoded'] at decoded
        cases decoded
  · have member := List.mem_of_getElem? listed
    rcases decoded with decoded | decoded
    · exact table.ordinal_ne_of_nested member listed' nested ne carried decoded
    · exact other.ordinal_ne_of_nested member listed' nested ne carried decoded
  · exact table.decode_eq_of_wins_iff other fun _ _ => nested.wins_iff.trans nested.wins_iff.symm
  · rw [table.decode_eq_ok_iff]
    simp only [nested.wins_iff, Instruction.rule_eq_ok]

/-- The instruction that is carved out keeps its word under both orders. -/
theorem trialOrders_agree_overlapping : ∃ t u,
    Table.ofInstructions .specificity Overlapping.instructions = .ok t ∧
      Table.ofInstructions .numericDescending Overlapping.instructions = .ok u ∧
      t.decode 0x73 = u.decode 0x73 ∧
      u.decode 0x73 = .ok { raw := 0x73, ordinal := 1, operands := {} } := by
  obtain ⟨t, built⟩ := Overlapping.exists_table
  obtain ⟨buildable, -, agree⟩ :=
    trialOrders_agree .specificity .numericDescending Overlapping.instructions
  obtain ⟨u, built'⟩ := buildable.mp ⟨t, built⟩
  have nested : Nested Overlapping.instructions := nested_iff.mpr (by decide)
  obtain ⟨-, -, innermost⟩ := agree t u built built'
  obtain ⟨same, reads⟩ := innermost nested 0x73
  refine ⟨t, u, built, built', same, ?_⟩
  rw [← same, reads]
  exact ⟨Overlapping.ecall, ⟨false, false, false, .absent⟩, ⟨rfl, by decide, by decide⟩, by decide,
    by decide⟩

end DecodeTables
