import DecodeTables.Proofs.Overlap

/-!
# What ordinals stand for

Every part of a table numbers instructions by their place in the list that the table is built from.
`Table.Represents` says that all parts agree on one ordinal, and `Table.InRange` that an ordinal may
be looked up in each of them. Both hold of whatever ordinal a built table gives out
(`ordinals_agree`).
-/

namespace DecodeTables

namespace Table

/-- All parts of a table give an ordinal the same instruction. -/
structure Represents (t : Table) (n : Nat) (i : Instruction) : Prop where
  name?_eq : t.numbering.name? n = some i.id
  ordinal?_eq : t.numbering.ordinal? i.id = some n
  instruction_eq : t.instructions[n]? = some i
  rule_eq : ∃ rule, i.rule = .ok rule ∧ t.rules[n]? = some rule ∧
    t.probes.find? i.mask i.value = some ⟨i.mask, i.value, n, rule⟩

/-- An ordinal has an instruction, a rule and a name. -/
structure InRange (t : Table) (n : Nat) : Prop where
  instruction : n < t.instructions.length
  rule : n < t.rules.length
  name : n < t.numbering.names.length

namespace DerivedFrom

variable {order : TrialOrder} {instructions : List Instruction} {t : Table} {n : Nat}
  {i : Instruction} (table : DerivedFrom order instructions t)
include table

theorem represents_of_getElem? (listed : instructions[n]? = some i) : t.Represents n i where
  name?_eq := by
    rw [Numbering.name?, table.names_eq, List.getElem?_map, listed]
    rfl
  ordinal?_eq := table.ordinal?_eq listed
  instruction_eq := table.instructions_eq ▸ listed
  rule_eq := by
    obtain ⟨rule, derived, held⟩ := table.exists_rule listed
    exact ⟨rule, Instruction.rule_eq_ok.mpr derived, held,
      table.find?_iff.mpr ⟨n, i, rule, listed, derived, rfl, rfl, rfl⟩⟩

theorem terminal_eq : t.numbering.terminal = instructions.length := by
  rw [Numbering.terminal, table.names_eq, List.length_map]

/-- The parts are as long as the list of instructions. -/
theorem inRange_iff : t.InRange n ↔ n < instructions.length := by
  have names : t.numbering.names.length = instructions.length := table.terminal_eq
  constructor
  · exact fun inRange => table.instructions_eq ▸ inRange.instruction
  · intro bound
    exact ⟨table.instructions_eq.symm ▸ bound, (length_of_mapM table.rules_ok).symm ▸ bound,
      names.symm ▸ bound⟩

theorem inRange_of_getElem? (listed : instructions[n]? = some i) : t.InRange n :=
  table.inRange_iff.mpr (List.getElem?_eq_some_iff.mp listed).1

/-- A name that has an ordinal is the name of the instruction with that ordinal. -/
theorem inRange_of_ordinal? {name : String} (own : t.numbering.ordinal? name = some n) :
    t.InRange n := by
  obtain ⟨bound, -⟩ := List.idxOf?_eq_some_iff.mp own
  rw [table.inRange_iff, ← table.terminal_eq]
  exact bound

/-- What is decoded is read by the rule that the table has for it. -/
theorem rules_of_decode {raw : Word} {d : Decoded} (decoded : t.decode raw = .ok d) :
    t.InRange d.ordinal ∧ ∃ rule, t.rules[d.ordinal]? = some rule ∧
      d.operands = rule.extract raw := by
  obtain ⟨j, rule, wins, derived, same⟩ := table.decode_eq_ok_iff.mp decoded
  obtain ⟨own, derived', held⟩ := table.exists_rule wins.listed
  obtain rfl := Option.some.inj (derived.symm.trans derived')
  exact ⟨table.inRange_of_getElem? wins.listed, rule, held, by rw [same]⟩

end DerivedFrom

end Table

/-- All parts of a table agree on the ordinal of every instruction. The probe table has a row for
each of them and no other, and every ordinal that decoding, the overlaps, the rows or the numbering
give out is that of an instruction, whose rule is the one that words are read by. -/
theorem ordinals_agree {order : TrialOrder} {instructions : List Instruction} {t : Table}
    (built : Table.ofInstructions order instructions = .ok t) :
    (∀ (n : Nat) (i : Instruction), instructions[n]? = some i → t.Represents n i) ∧
    t.instructions.length = instructions.length ∧ t.probes.size = instructions.length ∧
    (∀ p ∈ t.probes.rows, ∃ i, instructions[p.ordinal]? = some i ∧ i.rule = .ok p.rule ∧
      i.mask = p.mask ∧ i.value = p.value) ∧
    t.numbering.terminal = instructions.length ∧
    (∀ (raw : Word) (d : Decoded), t.decode raw = .ok d →
      d.ordinal ≠ t.numbering.terminal ∧ t.InRange d.ordinal ∧
        ∃ rule, t.rules[d.ordinal]? = some rule ∧ d.operands = rule.extract raw) ∧
    (∀ o ∈ t.overlaps, t.InRange o.winner ∧ t.InRange o.shadowed) ∧
    (∀ p, (p ∈ t.probes.rows ∨ ∃ mask value, t.probes.find? mask value = some p) →
      t.InRange p.ordinal) ∧
    (∀ n, n < t.numbering.size → t.InRange n) ∧
    ∀ (name : String) (n : Nat), t.numbering.ordinal? name = some n → t.InRange n := by
  have table := Table.derivedFrom_of_ofInstructions built
  refine ⟨fun _ _ => table.represents_of_getElem?, by rw [table.instructions_eq],
    table.size_probes, fun p member => ?_, table.terminal_eq, fun raw d decoded => ?_,
    fun o member => ?_, fun p member => ?_, fun n bound => ?_, fun _ _ => table.inRange_of_ordinal?⟩
  · obtain ⟨i, listed, derived, mask, value⟩ := table.mem_rows_iff.mp member
    exact ⟨i, listed, Instruction.rule_eq_ok.mpr derived, mask, value⟩
  · obtain ⟨inRange, rule, held, read⟩ := table.rules_of_decode decoded
    exact ⟨Nat.ne_of_lt inRange.name, inRange, rule, held, read⟩
  · obtain ⟨a, b, listed, listed', -⟩ := table.mem_overlaps_iff.mp member
    exact ⟨table.inRange_of_getElem? listed, table.inRange_of_getElem? listed'⟩
  · obtain ⟨i, listed, -⟩ := table.mem_rows_iff.mp (member.elim id
      fun ⟨_, _, found⟩ => List.mem_of_find?_eq_some found)
    exact table.inRange_of_getElem? listed
  · exact table.inRange_iff.mpr (table.terminal_eq ▸ bound)

/-- The branch is the third of three instructions, in every part of the table. -/
theorem ordinals_agree_overlapping : ∃ t,
    Table.ofInstructions .specificity Overlapping.instructions = .ok t ∧
      t.Represents 2 Overlapping.beq ∧ t.probes.size = 3 ∧ t.numbering.terminal = 3 := by
  obtain ⟨t, built⟩ := Overlapping.exists_table
  obtain ⟨represented, -, size, -, terminal, -⟩ := ordinals_agree built
  exact ⟨t, built, represented 2 Overlapping.beq rfl, size, terminal⟩

end DecodeTables
