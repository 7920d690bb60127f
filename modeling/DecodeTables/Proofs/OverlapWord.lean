import DecodeTables.Proofs.Overlap

/-!
# The word of an overlap

An overlap shows a word of two instructions, and of these two the winner is tried first. Other
instructions of the opcode may match the word as well. `Table.Intercepted` says that one of them is
tried even before the winner; the word is decoded as the winner in all other cases and in no
intercepted one (`decode_overlapWord`).
-/

namespace DecodeTables

/-- The word of an overlap also matches an instruction by which the winner is shadowed itself. -/
def Table.Intercepted (t : Table) (o : Overlap) : Prop :=
  ∃ p ∈ t.overlaps, p.shadowed = o.winner ∧
    ∃ i, t.instructions[p.winner]? = some i ∧ i.isMatch o.word = true

namespace Table.DerivedFrom

variable {order : TrialOrder} {instructions : List Instruction} {t : Table} {o : Overlap}
  {d : Decoded} (table : DerivedFrom order instructions t) (member : o ∈ t.overlaps)
include table member

/-- Some instruction gets the word of an overlap. -/
theorem exists_decode_word : ∃ d, t.decode o.word = .ok d := by
  obtain ⟨a, b, listed, listed', -⟩ := table.mem_overlaps_iff.mp member
  obtain ⟨carried, -⟩ := table.isMatch_word member listed listed'
  exact table.exists_decode_of_isMatch (List.mem_of_getElem? listed) carried

variable (decoded : t.decode o.word = .ok d)
include decoded

/-- The shadowed instruction does not get it, because the winner is tried before. -/
theorem ordinal_ne_shadowed : d.ordinal ≠ o.shadowed := by
  intro same
  obtain ⟨a, b, listed, listed', before, -⟩ := table.mem_overlaps_iff.mp member
  obtain ⟨carried, -⟩ := table.isMatch_word member listed listed'
  obtain ⟨i, -, wins, -, -⟩ := table.decode_eq_ok_iff.mp decoded
  obtain rfl := Option.some.inj (listed'.symm.trans (same ▸ wins.listed))
  exact wins.first a (List.mem_of_getElem? listed) carried before

/-- An instruction other than the winner that gets it is listed as the winner of both. -/
theorem exists_overlaps_of_ne_winner (ne : d.ordinal ≠ o.winner) :
    (∃ p ∈ t.overlaps, p.winner = d.ordinal ∧ p.shadowed = o.winner) ∧
      ∃ p ∈ t.overlaps, p.winner = d.ordinal ∧ p.shadowed = o.shadowed := by
  obtain ⟨a, b, listed, listed', -⟩ := table.mem_overlaps_iff.mp member
  obtain ⟨carried, carried'⟩ := table.isMatch_word member listed listed'
  exact ⟨table.exists_overlap_of_decode decoded listed carried ne,
    table.exists_overlap_of_decode decoded listed' carried'
      (table.ordinal_ne_shadowed member decoded)⟩

/-- The winner gets it, unless it is intercepted. -/
theorem ordinal_eq_winner_iff : d.ordinal = o.winner ↔ ¬ t.Intercepted o := by
  obtain ⟨i, -, wins, -, -⟩ := table.decode_eq_ok_iff.mp decoded
  constructor
  · rintro same ⟨p, listedPair, shadowed, j, listed, carried⟩
    rw [table.instructions_eq] at listed
    have won : instructions[o.winner]? = some i := same ▸ wins.listed
    obtain ⟨before, -⟩ := (table.exists_overlap_iff listed won).mp ⟨p, listedPair, rfl, shadowed⟩
    exact wins.first j (List.mem_of_getElem? listed) carried before
  · intro free
    by_contra ne
    obtain ⟨⟨p, listedPair, winner, shadowed⟩, -⟩ :=
      table.exists_overlaps_of_ne_winner member decoded ne
    refine free ⟨p, listedPair, shadowed, i, ?_, wins.isMatch⟩
    rw [table.instructions_eq, winner]
    exact wins.listed

end Table.DerivedFrom

/-- The word of an overlap is decoded, and never as the shadowed instruction. It is decoded as the
winner unless an instruction that shadows the winner matches it, too. In that case the instruction
that it is decoded as is listed as the winner of both. -/
theorem decode_overlapWord {order : TrialOrder} {instructions : List Instruction} {t : Table}
    (built : Table.ofInstructions order instructions = .ok t) :
    ∀ o ∈ t.overlaps, ∃ d, t.decode o.word = .ok d ∧ d.ordinal ≠ o.shadowed ∧
      (d.ordinal = o.winner ↔ ¬ t.Intercepted o) ∧
      (d.ordinal ≠ o.winner →
        (∃ p ∈ t.overlaps, p.winner = d.ordinal ∧ p.shadowed = o.winner) ∧
          ∃ p ∈ t.overlaps, p.winner = d.ordinal ∧ p.shadowed = o.shadowed) := by
  intro o member
  have table := Table.derivedFrom_of_ofInstructions built
  obtain ⟨d, decoded⟩ := table.exists_decode_word member
  exact ⟨d, decoded, table.ordinal_ne_shadowed member decoded,
    table.ordinal_eq_winner_iff member decoded, table.exists_overlaps_of_ne_winner member decoded⟩

/-- Nothing shadows the instruction that is carved out, so it gets the word that it shares. -/
theorem decode_overlapWord_overlapping : ∃ t d,
    Table.ofInstructions .specificity Overlapping.instructions = .ok t ∧
      ⟨1, 0, 0x73⟩ ∈ t.overlaps ∧ t.decode 0x73 = .ok d ∧ d.ordinal = 1 := by
  obtain ⟨t, built⟩ := Overlapping.exists_table
  have table := Table.derivedFrom_of_ofInstructions built
  have member : ⟨1, 0, 0x73⟩ ∈ t.overlaps := table.mem_overlaps_iff.mpr
    ⟨Overlapping.ecall, Overlapping.system, rfl, rfl, by decide, by decide, by decide⟩
  obtain ⟨d, decoded, -, winner, -⟩ := decode_overlapWord built _ member
  refine ⟨t, d, built, member, decoded, winner.mpr ?_⟩
  rintro ⟨p, listed, shadowed, -⟩
  obtain ⟨a, b, first, second, before, -⟩ := table.mem_overlaps_iff.mp listed
  -- No mask has more literal bits than the one that has all.
  rw [show p.shadowed = 1 from shadowed] at second
  obtain rfl : Overlapping.ecall = b := Option.some.inj second
  have none : ∀ i ∈ Overlapping.instructions,
      ¬ TrialOrder.specificity.Before i.mask Overlapping.ecall.mask := by decide
  exact none a (List.mem_of_getElem? first) before

/-! ## An intercepted word

Three instructions of one opcode. The first two fix one field each, the third fixes all other bits,
so it matches the word that the first two share. -/

namespace Crossing

def fixedRd : Instruction where
  id := "fixed_rd"
  encoding := "--------------------000010001011"
  mask := 0xfff
  value := 0x8b
  fields := [.rs1, .rs2, .rs3, .rm, .aq, .rl]
  extensions := []
  id_ne := by decide
  read_encoding := by decide
  opcode_literal := by decide
  fields_normal := by decide
  union_fields := by decide

def fixedRm : Instruction where
  id := "fixed_rm"
  encoding := "-----------------001-----0001011"
  mask := 0x707f
  value := 0x100b
  fields := [.rd, .rs1, .rs2, .rs3, .aq, .rl]
  extensions := []
  id_ne := by decide
  read_encoding := by decide
  opcode_literal := Overlapping.system.opcode_literal
  fields_normal := by decide
  union_fields := by decide

def fixedRest : Instruction where
  id := "fixed_rest"
  encoding := "00000000000000000--------0001011"
  mask := 0xffff807f
  value := 0xb
  fields := [.rd, .rm]
  extensions := []
  id_ne := by decide
  read_encoding := by decide
  opcode_literal := by decide
  fields_normal := by decide
  union_fields := by decide

def instructions : List Instruction := [fixedRd, fixedRm, fixedRest]

theorem exists_table : ∃ t, Table.ofInstructions .specificity instructions = .ok t :=
  exists_of_isOk (by decide +kernel)

end Crossing

/-- The overlap of the first two shows a word that is decoded as the third. -/
theorem overlapWord_intercepted : ∃ t o d,
    Table.ofInstructions .specificity Crossing.instructions = .ok t ∧ o ∈ t.overlaps ∧
      t.decode o.word = .ok d ∧ d.ordinal ≠ o.winner := by
  obtain ⟨t, built⟩ := Crossing.exists_table
  have table := Table.derivedFrom_of_ofInstructions built
  have member : ⟨0, 1, 0x108b⟩ ∈ t.overlaps := table.mem_overlaps_iff.mpr
    ⟨Crossing.fixedRd, Crossing.fixedRm, rfl, rfl, by decide, by decide, by decide⟩
  have wins : Wins .specificity Crossing.instructions 0x108b 2 Crossing.fixedRest :=
    ⟨rfl, by decide, by decide⟩
  have decoded : t.decode 0x108b = .ok ⟨0x108b, 2, { rd := some 1 }⟩ :=
    table.decode_eq_ok_iff.mpr
      ⟨_, ⟨false, false, true, .absent⟩, wins, by decide, by decide⟩
  exact ⟨t, _, _, built, member, decoded, by decide⟩

end DecodeTables
