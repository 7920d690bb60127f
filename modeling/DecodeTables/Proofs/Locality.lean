import DecodeTables.Proofs.Reordering

/-!
# Leaving instructions out

What a word is decoded as depends on the instructions that it matches and on no others. If some are
left out of a list, the words of the rest stay where they are, and a word that comes to an
instruction anew was that of one that is left out and tried before (`ofInstructions_sublist`).
-/

namespace DecodeTables

variable {order : TrialOrder} {instructions kept : List Instruction} {raw : Word} {n m : Nat}
  {i j : Instruction}

theorem Table.Buildable.of_sublist (sub : kept.Sublist instructions)
    (buildable : Buildable instructions) : Buildable kept where
  symbols := buildable.symbols.sublist (sub.map _)
  rules i member := buildable.rules i (sub.subset member)
  keys := buildable.keys.sublist (sub.map _)

/-- An instruction that is kept wins the words that it won before. -/
theorem Wins.of_subset (wins : Wins order instructions raw n i) (subset : kept ⊆ instructions)
    (listed : kept[m]? = some i) : Wins order kept raw m i where
  listed := listed
  isMatch := wins.isMatch
  first other member := wins.first other (subset member)

namespace Table.DerivedFrom

variable {t u : Table} {d : Decoded} (table : DerivedFrom order instructions t)
  (rest : DerivedFrom order kept u)
include table rest

/-- What is read from a word is told by name, so the two lists may number its winner differently. -/
theorem namedDecoded_eq {e : Decoded} (decoded : t.decode raw = .ok d)
    (decoded' : u.decode raw = .ok e) (listed : instructions[d.ordinal]? = some i)
    (listed' : kept[e.ordinal]? = some i) : u.namedDecoded e = t.namedDecoded d := by
  obtain ⟨j, rule, wins, derived, read⟩ := table.decode_eq_ok_iff.mp decoded
  obtain ⟨j', rule', wins', derived', read'⟩ := rest.decode_eq_ok_iff.mp decoded'
  obtain rfl := Option.some.inj (wins.listed.symm.trans listed)
  obtain rfl := Option.some.inj (wins'.listed.symm.trans listed')
  obtain rfl := Option.some.inj (derived.symm.trans derived')
  rw [namedDecoded, namedDecoded, table.name_eq listed, rest.name_eq listed', read, read']

variable (subset : kept ⊆ instructions)
include subset

/-- A word of an instruction that is kept is decoded as before. -/
theorem decode_of_mem (decoded : t.decode raw = .ok d) (listed : instructions[d.ordinal]? = some i)
    (member : i ∈ kept) : ∃ e, u.decode raw = .ok e ∧ u.namedDecoded e = t.namedDecoded d := by
  obtain ⟨j, rule, wins, derived, -⟩ := table.decode_eq_ok_iff.mp decoded
  obtain rfl := Option.some.inj (wins.listed.symm.trans listed)
  obtain ⟨m, place⟩ := List.mem_iff_getElem?.mp member
  have decoded' : u.decode raw = .ok ⟨raw, m, rule.extract raw⟩ :=
    rest.decode_eq_ok_iff.mpr ⟨_, rule, wins.of_subset subset place, derived, rfl⟩
  exact ⟨_, decoded', table.namedDecoded_eq rest decoded decoded' listed place⟩

/-- A word that is decoded was so before, either as the same instruction or as one that is left out
and tried before. -/
theorem decode_of_decode {e : Decoded} (decoded : u.decode raw = .ok e)
    (listed : kept[e.ordinal]? = some i) :
    ∃ d j, t.decode raw = .ok d ∧ instructions[d.ordinal]? = some j ∧
      (j = i ∧ t.namedDecoded d = u.namedDecoded e ∨
        j ∉ kept ∧ order.Before j.mask i.mask ∧ j.isMatch raw = true) := by
  obtain ⟨i', rule, wins, -, -⟩ := rest.decode_eq_ok_iff.mp decoded
  obtain rfl := Option.some.inj (wins.listed.symm.trans listed)
  have member := subset (List.mem_of_getElem? listed)
  obtain ⟨n, place⟩ := List.mem_iff_getElem?.mp member
  obtain ⟨d, decodedBefore⟩ := table.exists_decode_of_isMatch member wins.isMatch
  obtain ⟨j, rule', wins', -, -⟩ := table.decode_eq_ok_iff.mp decodedBefore
  refine ⟨d, j, decodedBefore, wins'.listed, ?_⟩
  by_cases keeps : j ∈ kept
  · -- The winner of the longer list wins the shorter one too, which has one winner only.
    obtain ⟨m, place'⟩ := List.mem_iff_getElem?.mp keeps
    obtain rfl := rest.wins_unique wins (wins'.of_subset subset place')
    obtain rfl := Option.some.inj (listed.symm.trans place')
    exact .inl ⟨rfl, (table.namedDecoded_eq rest decodedBefore decoded wins'.listed listed).symm⟩
  · have ne : d.ordinal ≠ n := by
      intro same
      obtain rfl := Option.some.inj (place.symm.trans (same ▸ wins'.listed))
      exact keeps (List.mem_of_getElem? listed)
    have ranked := table.before_or_before wins'.listed place ne wins'.isMatch wins.isMatch
    exact .inr ⟨keeps, ranked.resolve_right (wins'.first _ member wins.isMatch), wins'.isMatch⟩

/-- A word that is refused stays so; its opcode may have lost its last instruction. -/
theorem decode_eq_error_of_subset {e : Undecoded} (refused : t.decode raw = .error e) :
    u.decode raw = .error e ∨
      u.decode raw = .error (.unknownOpcode { raw, opcode := raw.opcode }) := by
  have again := table.decode_eq_error_iff.mp refused
  rw [rest.decode_eq_error_iff, rest.decode_eq_error_iff]
  by_cases used : ∃ i ∈ kept, i.opcode = raw.opcode
  · obtain ⟨i, member, own⟩ := used
    rcases again with ⟨-, unused⟩ | ⟨same, -, unmatched⟩
    · exact absurd own (unused i (subset member))
    · exact .inl (.inr ⟨same, ⟨i, member, own⟩, fun j listed => unmatched j (subset listed)⟩)
  · exact .inr (.inl ⟨rfl, fun i member own => used ⟨i, member, own⟩⟩)

end Table.DerivedFrom

/-- Every part of a list from which a table can be built makes a table too, and differs from the
whole only where it has to: a word of an instruction that is kept is read as before, a word that is
read as an instruction was read as that one or as one that is left out and comes before it, and a
word that was refused is refused. -/
theorem ofInstructions_sublist {t : Table} (sub : kept.Sublist instructions)
    (built : Table.ofInstructions order instructions = .ok t) :
    ∃ u, Table.ofInstructions order kept = .ok u ∧ ∀ raw,
      (∀ d, t.decode raw = .ok d → ∃ i, instructions[d.ordinal]? = some i ∧
        (i ∈ kept → ∃ e, u.decode raw = .ok e ∧ u.namedDecoded e = t.namedDecoded d)) ∧
      (∀ e, u.decode raw = .ok e → ∃ i, kept[e.ordinal]? = some i ∧
        ∃ d j, t.decode raw = .ok d ∧ instructions[d.ordinal]? = some j ∧
          (j = i ∧ t.namedDecoded d = u.namedDecoded e ∨
            j ∉ kept ∧ order.Before j.mask i.mask ∧ j.isMatch raw = true)) ∧
      (∀ word, t.decode raw = .error (.unknownOpcode word) →
        u.decode raw = .error (.unknownOpcode word)) ∧
      ∀ word, t.decode raw = .error (.unknownInstruction word) →
        u.decode raw = .error (.unknownInstruction word) ∨
          u.decode raw = .error (.unknownOpcode word) := by
  have table := Table.derivedFrom_of_ofInstructions built
  obtain ⟨u, built'⟩ := Table.exists_ofInstructions_iff.mpr
    ((Table.exists_ofInstructions_iff.mp ⟨t, built⟩).of_sublist sub)
  have rest := Table.derivedFrom_of_ofInstructions built'
  refine ⟨u, built', fun raw => ⟨fun d decoded => ?_, fun e decoded => ?_, fun word refused => ?_,
    fun word refused => ?_⟩⟩
  · obtain ⟨i, -, wins, -, -⟩ := table.decode_eq_ok_iff.mp decoded
    exact ⟨i, wins.listed, table.decode_of_mem rest sub.subset decoded wins.listed⟩
  · obtain ⟨i, -, wins, -, -⟩ := rest.decode_eq_ok_iff.mp decoded
    exact ⟨i, wins.listed, table.decode_of_decode rest sub.subset decoded wins.listed⟩
  · have own : Undecoded.unknownOpcode word = .unknownOpcode { raw, opcode := raw.opcode } := by
      rcases table.decode_eq_error_iff.mp refused with ⟨same, -⟩ | ⟨other, -, -⟩
      · exact same
      · cases other
    rw [own] at refused ⊢
    exact (table.decode_eq_error_of_subset rest sub.subset refused).elim id id
  · have own : word = { raw, opcode := raw.opcode } := by
      rcases table.decode_eq_error_iff.mp refused with ⟨other, -⟩ | ⟨same, -, -⟩
      · cases other
      · exact Undecoded.unknownInstruction.inj same
    rw [own] at refused ⊢
    exact table.decode_eq_error_of_subset rest sub.subset refused

/-- A branch keeps its name and its operands when the first instruction is left out and all others
are renumbered. -/
theorem ofInstructions_sublist_overlapping : ∃ t u d e,
    Table.ofInstructions .specificity Overlapping.instructions = .ok t ∧
      Table.ofInstructions .specificity [Overlapping.ecall, Overlapping.beq] = .ok u ∧
      t.decode 0xfe418ce3 = .ok d ∧ d.ordinal = 2 ∧ u.decode 0xfe418ce3 = .ok e ∧
      u.namedDecoded e =
        (0xfe418ce3, "beq", { rs1 := some 3, rs2 := some 4, imm := some (-8) }) := by
  obtain ⟨t, built⟩ := Overlapping.exists_table
  have table := Table.derivedFrom_of_ofInstructions built
  have sub : [Overlapping.ecall, Overlapping.beq].Sublist Overlapping.instructions :=
    .cons _ (.refl _)
  obtain ⟨u, built', same⟩ := ofInstructions_sublist sub built
  have decoded := Overlapping.decode_beq table
  obtain ⟨forward, -⟩ := same 0xfe418ce3
  obtain ⟨i, listed, keeps⟩ := forward _ decoded
  obtain rfl := Option.some.inj (Overlapping.wins_beq.listed.symm.trans listed)
  obtain ⟨e, decoded', named⟩ := keeps (by simp)
  refine ⟨t, u, _, e, built, built', decoded, rfl, decoded', ?_⟩
  rw [named, Table.namedDecoded, table.name_eq Overlapping.wins_beq.listed]
  rfl

end DecodeTables
