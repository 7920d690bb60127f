import DecodeTables.Decode
import DecodeTables.Proofs.Table

/-!
# Decoding is a search for the first match

What `Table.decode` answers, said of the instructions alone. `Wins` is the search without tables: a
word belongs to an instruction that it matches, unless it also matches one whose mask is tried
before. `decode_eq_ok_iff` and `decode_eq_error_iff` say that a built table answers every word by
that search.
-/

namespace DecodeTables

/-- The word belongs to this instruction: it matches, and matches none that is tried before. -/
structure Wins (order : TrialOrder) (instructions : List Instruction) (raw : Word) (ordinal : Nat)
    (i : Instruction) : Prop where
  listed : instructions[ordinal]? = some i
  isMatch : i.isMatch raw = true
  first : ∀ other ∈ instructions, other.isMatch raw = true → ¬ order.Before other.mask i.mask

/-- The mask of an instruction that matches is among the trials of the word. -/
theorem mem_trials_of_isMatch (order : TrialOrder) {instructions : List Instruction} {raw : Word}
    {i : Instruction} (member : i ∈ instructions) (carried : i.isMatch raw = true) :
    i.mask ∈ order.sort (masksOf instructions raw.opcode) :=
  TrialOrder.mem_sort.mpr (mem_masksOf.mpr ⟨i, member, Instruction.opcode_of_isMatch carried, rfl⟩)

namespace Table.DerivedFrom

variable {order : TrialOrder} {instructions : List Instruction} {t : Table} {raw mask : Word}
  {n m : Nat} {i j : Instruction} {rule : Rule} {d : Decoded}
  (table : DerivedFrom order instructions t)
include table

/-- At most one instruction wins a word. -/
theorem wins_unique (wins : Wins order instructions raw n i)
    (wins' : Wins order instructions raw m j) : n = m := by
  have member := List.mem_of_getElem? wins.listed
  have member' := List.mem_of_getElem? wins'.listed
  have same : i.mask = j.mask := TrialOrder.eq_of_not_before
    (wins'.first i member wins.isMatch) (wins.first j member' wins'.isMatch)
  refine table.ordinal_unique wins.listed wins'.listed same ?_
  rw [← Instruction.isMatch_iff.mp wins.isMatch, ← Instruction.isMatch_iff.mp wins'.isMatch, same]

/-! ## Probing -/

/-- A probe under a mask reads the word as the instruction with that mask that it matches. -/
theorem probe_eq_some_iff : t.probes.probe raw mask = some d ↔
    ∃ n i rule, instructions[n]? = some i ∧ Rule.ofFields? i.fields = some rule ∧
      i.mask = mask ∧ i.isMatch raw = true ∧ d = ⟨raw, n, rule.extract raw⟩ := by
  rw [ProbeTable.probe, Option.map_eq_some_iff]
  constructor
  · rintro ⟨p, found, rfl⟩
    obtain ⟨n, i, rule, listed, derived, rfl, carried, rfl⟩ := table.find?_iff.mp found
    exact ⟨n, i, rule, listed, derived, rfl, Instruction.isMatch_iff.mpr carried.symm, rfl⟩
  · rintro ⟨n, i, rule, listed, derived, rfl, carried, rfl⟩
    exact ⟨_, table.find?_iff.mpr ⟨n, i, rule, listed, derived, rfl,
      (Instruction.isMatch_iff.mp carried).symm, rfl⟩, rfl⟩

/-- A probe under a mask fails if the word matches no instruction with that mask. -/
theorem probe_eq_none_iff : t.probes.probe raw mask = none ↔
    ∀ i ∈ instructions, i.mask = mask → i.isMatch raw = false := by
  rw [Option.eq_none_iff_forall_ne_some]
  constructor
  · rintro failed i member rfl
    rw [Bool.eq_false_iff]
    intro carried
    obtain ⟨n, listed⟩ := List.mem_iff_getElem?.mp member
    obtain ⟨rule, derived, -⟩ := table.exists_rule listed
    exact failed _ (table.probe_eq_some_iff.mpr ⟨n, i, rule, listed, derived, rfl, carried, rfl⟩)
  · intro unmatched d probed
    obtain ⟨n, i, -, listed, -, own, carried, -⟩ := table.probe_eq_some_iff.mp probed
    rw [unmatched i (List.mem_of_getElem? listed) own] at carried
    exact Bool.false_ne_true carried

/-- The first probe that succeeds is that of the instruction that wins. -/
theorem findSome?_probe_eq_some_iff :
    (order.sort (masksOf instructions raw.opcode)).findSome? (t.probes.probe raw) = some d ↔
      ∃ i rule, Wins order instructions raw d.ordinal i ∧ Rule.ofFields? i.fields = some rule ∧
        d = ⟨raw, d.ordinal, rule.extract raw⟩ := by
  rw [TrialOrder.findSome?_eq_some_iff
    (TrialOrder.sort_pairwise_before (masksOf_nodup instructions raw.opcode))]
  constructor
  · rintro ⟨mask, -, probed, failed⟩
    obtain ⟨n, i, rule, listed, derived, rfl, carried, rfl⟩ := table.probe_eq_some_iff.mp probed
    refine ⟨i, rule, ⟨listed, carried, fun other member carried' before => ?_⟩, derived, rfl⟩
    have failed := failed _ (mem_trials_of_isMatch order member carried') before
    rw [table.probe_eq_none_iff.mp failed other member rfl] at carried'
    exact Bool.false_ne_true carried'
  · rintro ⟨i, rule, wins, derived, same⟩
    refine ⟨i.mask, mem_trials_of_isMatch order (List.mem_of_getElem? wins.listed) wins.isMatch,
      ?_, fun mask _ before => table.probe_eq_none_iff.mpr ?_⟩
    · rw [same]
      exact table.probe_eq_some_iff.mpr
        ⟨_, i, rule, wins.listed, derived, rfl, wins.isMatch, rfl⟩
    · rintro other member rfl
      exact Bool.eq_false_iff.mpr fun carried' => wins.first other member carried' before

/-- Every probe fails if the word matches no instruction. -/
theorem findSome?_probe_eq_none_iff :
    (order.sort (masksOf instructions raw.opcode)).findSome? (t.probes.probe raw) = none ↔
      ∀ i ∈ instructions, i.isMatch raw = false := by
  simp only [List.findSome?_eq_none_iff, table.probe_eq_none_iff]
  constructor
  · intro failed i member
    by_contra carried
    rw [Bool.not_eq_false] at carried
    rw [failed _ (mem_trials_of_isMatch order member carried) i member rfl] at carried
    exact Bool.false_ne_true carried
  · exact fun unmatched _ _ i member _ => unmatched i member

/-! ## Decoding -/

/-- A word is decoded by the first probe that succeeds, unless its opcode has no masks. -/
theorem decode_eq (raw : Word) : t.decode raw =
    if masksOf instructions raw.opcode = [] then
      .error (.unknownOpcode { raw, opcode := raw.opcode })
    else match (order.sort (masksOf instructions raw.opcode)).findSome? (t.probes.probe raw) with
      | some d => .ok d
      | none => .error (.unknownInstruction { raw, opcode := raw.opcode }) := by
  unfold Table.decode
  dsimp only
  rw [table.plan_eq, Plan.dispatch_ofInstructions order instructions (Word.opcode_lt raw)]
  match masksOf instructions raw.opcode with
  | [] => rfl
  | [mask] =>
    rw [TrialOrder.sort_singleton, List.findSome?_singleton]
    rfl
  | _ :: _ :: _ => rfl

/-- What is decoded is the instruction that wins the word, with the operands of its rule. -/
theorem decode_eq_ok_iff : t.decode raw = .ok d ↔
    ∃ i rule, Wins order instructions raw d.ordinal i ∧ Rule.ofFields? i.fields = some rule ∧
      d = ⟨raw, d.ordinal, rule.extract raw⟩ := by
  rw [table.decode_eq, ← table.findSome?_probe_eq_some_iff]
  split
  · rename_i unused
    rw [unused, TrialOrder.sort_nil, List.findSome?_nil]
    exact ⟨(nomatch ·), (nomatch ·)⟩
  · split
    · rename_i found
      rw [found, Except.ok.injEq, Option.some.injEq]
    · rename_i failed
      rw [failed]
      exact ⟨(nomatch ·), (nomatch ·)⟩

/-- A word is refused if no instruction has its opcode, or if it matches none of those that do. -/
theorem decode_eq_error_iff {e : Undecoded} : t.decode raw = .error e ↔
    (e = .unknownOpcode { raw, opcode := raw.opcode } ∧
      ∀ i ∈ instructions, i.opcode ≠ raw.opcode) ∨
    (e = .unknownInstruction { raw, opcode := raw.opcode } ∧
      (∃ i ∈ instructions, i.opcode = raw.opcode) ∧
      ∀ i ∈ instructions, i.isMatch raw = false) := by
  rw [table.decode_eq, ← masksOf_eq_nil_iff, ← table.findSome?_probe_eq_none_iff]
  have used : (∃ i ∈ instructions, i.opcode = raw.opcode) ↔
      masksOf instructions raw.opcode ≠ [] := by
    rw [Ne, masksOf_eq_nil_iff]
    simp
  rw [used]
  split
  · rename_i unused
    simp [unused, eq_comm]
  · rename_i used
    split
    · rename_i found
      simp [used, found]
    · rename_i failed
      simp [used, failed, eq_comm]

/-- A word that matches an instruction is decoded. -/
theorem exists_decode_of_isMatch (member : i ∈ instructions) (carried : i.isMatch raw = true) :
    ∃ d, t.decode raw = .ok d := by
  cases decoded : t.decode raw with
  | ok d => exact ⟨d, rfl⟩
  | error e =>
    exfalso
    rcases table.decode_eq_error_iff.mp decoded with ⟨-, unused⟩ | ⟨-, -, unmatched⟩
    · exact unused i member (Instruction.opcode_of_isMatch carried)
    · rw [unmatched i member] at carried
      exact Bool.false_ne_true carried

end Table.DerivedFrom

/-! ## Two words of the overlapping instructions -/

namespace Overlapping

theorem wins_ecall : Wins .specificity instructions 0x73 1 ecall :=
  ⟨rfl, by decide, by decide⟩

theorem wins_beq : Wins .specificity instructions 0xfe418ce3 2 beq :=
  ⟨rfl, by decide, by decide⟩

variable {t : Table} (table : Table.DerivedFrom .specificity instructions t)
include table

theorem decode_ecall : t.decode 0x73 = .ok { raw := 0x73, ordinal := 1, operands := {} } :=
  table.decode_eq_ok_iff.mpr ⟨_, ⟨false, false, false, .absent⟩, wins_ecall, by decide, by decide⟩

theorem decode_beq : t.decode 0xfe418ce3 = .ok
    { raw := 0xfe418ce3, ordinal := 2
      operands := { rs1 := some 3, rs2 := some 4, imm := some (-8) } } :=
  table.decode_eq_ok_iff.mpr ⟨_, ⟨true, true, false, .b⟩, wins_beq, by decide, by decide⟩

end Overlapping

/-! ## All words -/

/-- Every word is decoded as the instruction that wins it, with the operands that the rule of its
fields reads. If no instruction wins it, the error tells whether any has its opcode. -/
theorem decode_firstMatch {order : TrialOrder} {instructions : List Instruction} {t : Table}
    (built : Table.ofInstructions order instructions = .ok t) (raw : Word) :
    (∀ d, t.decode raw = .ok d ↔ d.raw = raw ∧ ∃ i rule,
      Wins order instructions raw d.ordinal i ∧ i.rule = .ok rule ∧
        d.operands = rule.extract raw) ∧
    (∀ e, t.decode raw = .error e ↔
      (e = .unknownOpcode ⟨raw, (raw &&& 0x7f).toNat⟩ ∧
        ∀ i ∈ instructions, i.opcode ≠ (raw &&& 0x7f).toNat) ∨
      (e = .unknownInstruction ⟨raw, (raw &&& 0x7f).toNat⟩ ∧
        (∃ i ∈ instructions, i.opcode = (raw &&& 0x7f).toNat) ∧
        ∀ i ∈ instructions, i.isMatch raw = false)) ∧
    ∀ n m i j, Wins order instructions raw n i → Wins order instructions raw m j → n = m := by
  have table := Table.derivedFrom_of_ofInstructions built
  refine ⟨fun d => ?_, fun e => table.decode_eq_error_iff, fun _ _ _ _ => table.wins_unique⟩
  rw [table.decode_eq_ok_iff]
  constructor
  · rintro ⟨i, rule, wins, derived, same⟩
    rw [same]
    exact ⟨rfl, i, rule, wins, Instruction.rule_eq_ok.mpr derived, rfl⟩
  · rintro ⟨rfl, i, rule, wins, derived, same⟩
    exact ⟨i, rule, wins, Instruction.rule_eq_ok.mp derived, by rw [← same]⟩

/-- The word that two instructions match is read as the one with more literal bits. -/
theorem decode_firstMatch_overlapping : ∃ t,
    Table.ofInstructions .specificity Overlapping.instructions = .ok t ∧
      t.decode 0x73 = .ok { raw := 0x73, ordinal := 1, operands := {} } := by
  obtain ⟨t, built⟩ := Overlapping.exists_table
  exact ⟨t, built, ((decode_firstMatch built 0x73).1 _).mpr ⟨rfl, Overlapping.ecall,
    ⟨false, false, false, .absent⟩, Overlapping.wins_ecall, by decide, by decide⟩⟩

end DecodeTables
