import DecodeTables.Proofs.Overlap

/-!
# The order of a description

The order in which instructions are listed numbers them and does nothing else. `Table.named…` is what
a table says with names in the place of ordinals; the lemmas of `DerivedFrom` read each of these off
the set of instructions alone, so that permuted lists agree in all of them
(`ofInstructions_perm`).
-/

namespace DecodeTables

namespace Table

variable (t : Table)

/-- The name and the operands of a word that is decoded. -/
def namedDecoded (d : Decoded) : Word × String × Operands := (d.raw, t.name d.ordinal, d.operands)

/-- The rows of the probe table: mask, literal bits, name and rule. -/
def namedRows : List (Word × Word × String × Rule) :=
  t.probes.rows.map fun p => (p.mask, p.value, t.name p.ordinal, p.rule)

/-- The overlaps: the names of winner and shadowed instruction, and the word. -/
def namedOverlaps : List (String × String × Word) :=
  t.overlaps.map fun o => (t.name o.winner, t.name o.shadowed, o.word)

theorem Buildable.of_perm {instructions others : List Instruction}
    (perm : instructions.Perm others) (buildable : Buildable instructions) : Buildable others where
  symbols := (perm.map _).nodup_iff.mp buildable.symbols
  rules i member := buildable.rules i (perm.mem_iff.mpr member)
  keys := (perm.map _).nodup_iff.mp buildable.keys

namespace DerivedFrom

variable {order : TrialOrder} {instructions others : List Instruction} {t u : Table} {n m : Nat}
  {raw : Word} (table : DerivedFrom order instructions t)
include table

/-- No two ordinals have the same name. -/
theorem ordinal_of_name {i j : Instruction} (listed : instructions[n]? = some i)
    (listed' : instructions[m]? = some j) (same : t.name n = t.name m) : n = m := by
  rw [table.name_eq listed, table.name_eq listed'] at same
  have own := table.ordinal?_eq listed
  rw [same, table.ordinal?_eq listed'] at own
  exact (Option.some.inj own).symm

/-! ## Rows -/

theorem mem_namedRows {e : Word × Word × String × Rule} : e ∈ t.namedRows ↔
    ∃ i ∈ instructions, ∃ rule, Rule.ofFields? i.fields = some rule ∧
      e = (i.mask, i.value, i.id, rule) := by
  rw [namedRows, List.mem_map]
  constructor
  · rintro ⟨p, member, rfl⟩
    obtain ⟨i, listed, derived, mask, value⟩ := table.mem_rows_iff.mp member
    exact ⟨i, List.mem_of_getElem? listed, p.rule, derived,
      by rw [mask, value, table.name_eq listed]⟩
  · rintro ⟨i, member, rule, derived, rfl⟩
    obtain ⟨n, listed⟩ := List.mem_iff_getElem?.mp member
    exact ⟨⟨i.mask, i.value, n, rule⟩, table.mem_rows_iff.mpr ⟨i, listed, derived, rfl, rfl⟩,
      by rw [table.name_eq listed]⟩

/-- Rows ascend by mask, then by literal bits. -/
theorem namedRows_pairwise : t.namedRows.Pairwise fun a b =>
    a.1 < b.1 ∨ a.1 = b.1 ∧ a.2.1 < b.2.1 := by
  rw [namedRows, List.pairwise_map]
  exact (ProbeTable.rows_of_build table.probes_ok).1.imp Probe.before_iff.mp

/-! ## Overlaps -/

theorem mem_namedOverlaps {e : String × String × Word} : e ∈ t.namedOverlaps ↔
    ∃ a ∈ instructions, ∃ b ∈ instructions, order.Before a.mask b.mask ∧ agree a b = true ∧
      e = (a.id, b.id, a.value ||| b.value) := by
  rw [namedOverlaps, List.mem_map]
  constructor
  · rintro ⟨o, member, rfl⟩
    obtain ⟨a, b, listed, listed', before, agreeing, word⟩ := table.mem_overlaps_iff.mp member
    exact ⟨a, List.mem_of_getElem? listed, b, List.mem_of_getElem? listed',
      before, agreeing, by rw [table.name_eq listed, table.name_eq listed', word]⟩
  · rintro ⟨a, member, b, member', before, agreeing, rfl⟩
    obtain ⟨n, listed⟩ := List.mem_iff_getElem?.mp member
    obtain ⟨m, listed'⟩ := List.mem_iff_getElem?.mp member'
    exact ⟨⟨n, m, a.value ||| b.value⟩, table.mem_overlaps_iff.mpr
      ⟨a, b, listed, listed', before, agreeing, rfl⟩,
      by rw [table.name_eq listed, table.name_eq listed']⟩

theorem namedOverlaps_nodup : t.namedOverlaps.Nodup := by
  have pairs := table.overlaps_nodup
  rw [List.Nodup, List.pairwise_map] at pairs
  rw [namedOverlaps, List.Nodup, List.pairwise_map]
  refine pairs.imp_of_mem fun {o o'} member member' differ same => differ ?_
  obtain ⟨winner, rest⟩ := Prod.mk.inj same
  obtain ⟨a, b, listed, listedB, -⟩ := table.mem_overlaps_iff.mp member
  obtain ⟨a', b', listed', listedB', -⟩ := table.mem_overlaps_iff.mp member'
  rw [table.ordinal_of_name listed listed' winner,
    table.ordinal_of_name listedB listedB' (Prod.mk.inj rest).1]

/-! ## Two lists -/

variable (other : DerivedFrom order others u) (perm : instructions.Perm others)
include other perm

theorem namedRows_eq_of_perm : t.namedRows = u.namedRows := by
  let Ascending (a b : Word × Word × String × Rule) : Prop :=
    a.1 < b.1 ∨ a.1 = b.1 ∧ a.2.1 < b.2.1
  have asymm : Std.Asymm Ascending := ⟨fun a b first second => by
    simp only [Ascending, BitVec.lt_def] at first second
    rcases first with less | ⟨same, less⟩ <;> rcases second with less' | ⟨same', less'⟩
    · omega
    · rw [same'] at less
      omega
    · rw [same] at less'
      omega
    · omega⟩
  refine table.namedRows_pairwise.eq_of_mem_iff other.namedRows_pairwise fun e => ?_
  rw [table.mem_namedRows, other.mem_namedRows]
  simp only [perm.mem_iff]

theorem namedOverlaps_perm : t.namedOverlaps.Perm u.namedOverlaps := by
  refine (List.perm_ext_iff_of_nodup table.namedOverlaps_nodup other.namedOverlaps_nodup).mpr
    fun e => ?_
  rw [table.mem_namedOverlaps, other.mem_namedOverlaps]
  simp only [perm.mem_iff]

/-- The instruction that wins a word wins it in either list. -/
theorem decode_eq_of_perm (raw : Word) :
    (t.decode raw).map t.namedDecoded = (u.decode raw).map u.namedDecoded := by
  cases decoded : t.decode raw with
  | ok d =>
    obtain ⟨i, rule, wins, derived, same⟩ := table.decode_eq_ok_iff.mp decoded
    have member := perm.mem_iff.mp (List.mem_of_getElem? wins.listed)
    obtain ⟨m, listed⟩ := List.mem_iff_getElem?.mp member
    have wins' : Wins order others raw m i := ⟨listed, wins.isMatch, fun j member' =>
      wins.first j (perm.mem_iff.mpr member')⟩
    have decoded' : u.decode raw = .ok ⟨raw, m, rule.extract raw⟩ :=
      other.decode_eq_ok_iff.mpr ⟨i, rule, wins', derived, rfl⟩
    rw [decoded', same]
    simp only [Except.map, namedDecoded, table.name_eq wins.listed, other.name_eq listed]
  | error e =>
    have decoded' : u.decode raw = .error e := by
      rw [other.decode_eq_error_iff]
      simp only [← perm.mem_iff]
      exact table.decode_eq_error_iff.mp decoded
    rw [decoded']
    rfl

end DerivedFrom

end Table

/-- Whether a table can be built does not depend on the order of the instructions, and neither does
anything in it that is told by names: the masks of each opcode and their order, the rows, the
overlaps and what each word is decoded as. -/
theorem ofInstructions_perm {instructions others : List Instruction}
    (perm : instructions.Perm others) (order : TrialOrder) :
    ((∃ t, Table.ofInstructions order instructions = .ok t) ↔
      ∃ u, Table.ofInstructions order others = .ok u) ∧
    ∀ t u, Table.ofInstructions order instructions = .ok t →
      Table.ofInstructions order others = .ok u →
        t.plan.maskTable = u.plan.maskTable ∧ t.plan.trials = u.plan.trials ∧
        t.namedRows = u.namedRows ∧ t.namedOverlaps.Perm u.namedOverlaps ∧
        ∀ raw, (t.decode raw).map t.namedDecoded = (u.decode raw).map u.namedDecoded := by
  refine ⟨?_, fun t u built built' => ?_⟩
  · rw [Table.exists_ofInstructions_iff, Table.exists_ofInstructions_iff]
    exact ⟨.of_perm perm, .of_perm perm.symm⟩
  · have table := Table.derivedFrom_of_ofInstructions built
    have other := Table.derivedFrom_of_ofInstructions built'
    rw [table.plan_eq, other.plan_eq]
    exact ⟨Plan.maskTable_eq_of_perm perm order, Plan.trials_eq_of_perm perm order,
      table.namedRows_eq_of_perm other perm, table.namedOverlaps_perm other perm,
      table.decode_eq_of_perm other perm⟩

/-- The word of two instructions goes to the same one when they are listed in reverse. -/
theorem ofInstructions_perm_overlapping : ∃ t u,
    Table.ofInstructions .specificity Overlapping.instructions = .ok t ∧
      Table.ofInstructions .specificity Overlapping.instructions.reverse = .ok u ∧
      t.namedOverlaps.Perm u.namedOverlaps ∧
      (t.decode 0x73).map t.namedDecoded = (u.decode 0x73).map u.namedDecoded := by
  have perm := (List.reverse_perm Overlapping.instructions).symm
  obtain ⟨t, built⟩ := Overlapping.exists_table
  obtain ⟨buildable, same⟩ := ofInstructions_perm perm .specificity
  obtain ⟨u, built'⟩ := buildable.mp ⟨t, built⟩
  obtain ⟨-, -, -, overlaps, decoded⟩ := same t u built built'
  exact ⟨t, u, built, built', overlaps, decoded 0x73⟩

end DecodeTables
