import DecodeTables.Overlap
import DecodeTables.Proofs.Decode

/-!
# Which overlaps are listed

`Table.DerivedFrom.mem_overlaps_iff` reads the list of overlaps as a relation between two
instructions: one is tried before the other, and their literal bits agree. Such a pair is listed
exactly if some word matches both (`Instruction.agree_iff_exists`), and it is listed once
(`Table.DerivedFrom.overlaps_nodup`). Both are first said of a single opcode
(`Table.mem_overlapsAmong_iff`, `Table.overlapsAmong_pairwise_lt`), where masks stand for their places
among the trials (`place_lt_iff`).
-/

namespace DecodeTables

/-- The joined literal bits of instructions that agree are a word that both match. -/
theorem Instruction.isMatch_or_of_agree {a b : Instruction} (agree : Table.agree a b = true) :
    a.isMatch (a.value ||| b.value) = true ∧ b.isMatch (a.value ||| b.value) = true := by
  rw [Table.agree, beq_iff_eq] at agree
  rw [isMatch_iff, isMatch_iff]
  refine ⟨Word.or_and_of_agree a.value_within b.value_within agree, ?_⟩
  rw [BitVec.or_comm]
  rw [BitVec.xor_comm, BitVec.and_comm a.mask] at agree
  exact Word.or_and_of_agree b.value_within a.value_within agree

/-- The literal bits of two instructions agree exactly if some word matches both. -/
theorem Instruction.agree_iff_exists {a b : Instruction} : Table.agree a b = true ↔
    ∃ raw, a.isMatch raw = true ∧ b.isMatch raw = true := by
  constructor
  · exact fun agree => ⟨a.value ||| b.value, isMatch_or_of_agree agree⟩
  · rintro ⟨raw, carried, carried'⟩
    rw [isMatch_iff] at carried carried'
    rw [Table.agree, beq_iff_eq]
    exact Word.agree_of_carried carried carried'

variable {order : TrialOrder} {instructions : List Instruction} {t : Table} {opcode : Nat}
  {masks : List Word}

/-! ## Places among the trials -/

/-- The mask of an instruction has a place among the trials of its opcode. -/
theorem exists_place (order : TrialOrder) {i : Instruction} (member : i ∈ instructions) :
    ∃ rank, (order.sort (masksOf instructions i.opcode)).idxOf? i.mask = some rank :=
  Option.isSome_iff_exists.mp
    (List.isSome_idxOf?.mpr (TrialOrder.mem_sort.mpr (mem_masksOf.mpr ⟨i, member, rfl, rfl⟩)))

/-- The places of two masks are in the order of trials. -/
theorem place_lt_iff {rank rank' : Nat} {a b : Word}
    (place : (order.sort (masksOf instructions opcode)).idxOf? a = some rank)
    (place' : (order.sort (masksOf instructions opcode)).idxOf? b = some rank') :
    rank < rank' ↔ order.Before a b := by
  obtain ⟨bound, held, -⟩ := List.idxOf?_eq_some_iff.mp place
  obtain ⟨bound', held', -⟩ := List.idxOf?_eq_some_iff.mp place'
  exact TrialOrder.lt_iff_before
    (TrialOrder.sort_pairwise_before (masksOf_nodup instructions opcode))
    (held ▸ List.getElem?_eq_getElem bound) (held' ▸ List.getElem?_eq_getElem bound')

/-! ## Under one opcode -/

namespace Table

variable {o : Overlap}

/-- Contenders stand in the order of their ordinals. -/
theorem contenders_pairwise_lt (t : Table) (opcode : Nat) (masks : List Word) :
    (t.contenders opcode masks).Pairwise fun a b => a.2.1 < b.2.1 := by
  refine List.Pairwise.filterMap _ ?_ (zipIdx_pairwise_lt t.instructions 0)
  rintro ⟨i, n⟩ ⟨j, m⟩ before e kept e' kept'
  have place {k : Nat} {l : Instruction} {e : Nat × Nat × Instruction}
      (kept : (if l.opcode = opcode then (masks.idxOf? l.mask).map fun rank => (rank, k, l)
        else none) = some e) : e.2.1 = k := by
    split at kept
    · obtain ⟨rank, -, rfl⟩ := Option.map_eq_some_iff.mp kept
      rfl
    · cases kept
  rw [place kept, place kept']
  exact before

theorem mem_overlapsAmong_iff : o ∈ t.overlapsAmong opcode masks ↔
    ∃ rank rank' a b, (rank, o.winner, a) ∈ t.contenders opcode masks ∧
      (rank', o.shadowed, b) ∈ t.contenders opcode masks ∧ rank < rank' ∧ agree a b = true ∧
      o.word = a.value ||| b.value := by
  rw [overlapsAmong, List.mem_flatMap]
  constructor
  · rintro ⟨⟨rank, winner, a⟩, contender, member⟩
    obtain ⟨⟨rank', shadowed, b⟩, contender', kept⟩ := List.mem_filterMap.mp member
    dsimp only at kept
    split at kept
    · rename_i holds
      obtain rfl := Option.some.inj kept
      rw [Bool.and_eq_true, decide_eq_true_eq] at holds
      exact ⟨rank, rank', a, b, contender, contender', holds.1, holds.2, rfl⟩
    · cases kept
  · rintro ⟨rank, rank', a, b, contender, contender', before, agreeing, word⟩
    refine ⟨_, contender, List.mem_filterMap.mpr ⟨_, contender', ?_⟩⟩
    dsimp only
    rw [decide_eq_true before, agreeing, ← word]
    rfl

/-- They come by winner, then by shadowed instruction. -/
theorem overlapsAmong_pairwise_lt (t : Table) (opcode : Nat) (masks : List Word) :
    (t.overlapsAmong opcode masks).Pairwise fun o o' =>
      o.winner < o'.winner ∨ o.winner = o'.winner ∧ o.shadowed < o'.shadowed := by
  have ascending := t.contenders_pairwise_lt opcode masks
  rw [overlapsAmong, List.pairwise_flatMap]
  constructor
  · rintro ⟨rank, winner, a⟩ -
    refine List.Pairwise.filterMap _ ?_ ascending
    rintro ⟨_, m, b⟩ ⟨_, m', b'⟩ before o kept o' kept'
    dsimp only at kept kept'
    split at kept <;> cases kept
    split at kept' <;> cases kept'
    exact .inr ⟨rfl, before⟩
  · refine ascending.imp ?_
    rintro ⟨_, n, a⟩ ⟨_, n', a'⟩ before o member o' member'
    obtain ⟨_, -, kept⟩ := List.mem_filterMap.mp member
    obtain ⟨_, -, kept'⟩ := List.mem_filterMap.mp member'
    dsimp only at kept kept'
    split at kept <;> cases kept
    split at kept' <;> cases kept'
    exact .inl before

end Table

/-! ## Of a table -/

namespace Table.DerivedFrom

variable {o : Overlap} {rank ordinal : Nat} {i : Instruction}
  (table : DerivedFrom order instructions t)
include table

theorem mem_contenders : (rank, ordinal, i) ∈ t.contenders opcode masks ↔
    instructions[ordinal]? = some i ∧ i.opcode = opcode ∧ masks.idxOf? i.mask = some rank := by
  rw [contenders, table.instructions_eq, List.mem_filterMap]
  constructor
  · rintro ⟨⟨j, place⟩, listed, kept⟩
    dsimp only at kept
    split at kept
    · rename_i same
      obtain ⟨r, found, same'⟩ := Option.map_eq_some_iff.mp kept
      cases same'
      exact ⟨List.mem_zipIdx_iff_getElem?.mp listed, same, found⟩
    · cases kept
  · rintro ⟨listed, same, found⟩
    refine ⟨(i, ordinal), List.mem_zipIdx_iff_getElem?.mpr listed, ?_⟩
    simp only [same, if_true, found, Option.map_some]

/-- An overlap is listed for two instructions with a common word, under the one that is tried
before, and with the word that joins their literal bits. -/
theorem mem_overlaps_iff : o ∈ t.overlaps ↔
    ∃ a b, instructions[o.winner]? = some a ∧ instructions[o.shadowed]? = some b ∧
      order.Before a.mask b.mask ∧ agree a b = true ∧ o.word = a.value ||| b.value := by
  rw [overlaps, table.plan_eq, List.mem_flatMap]
  constructor
  · rintro ⟨⟨opcode, masks⟩, trials, member⟩
    obtain ⟨-, rfl⟩ := Plan.mem_trials.mp trials
    obtain ⟨rank, rank', a, b, contender, contender', before, agreeing, word⟩ :=
      mem_overlapsAmong_iff.mp member
    obtain ⟨listed, -, place⟩ := table.mem_contenders.mp contender
    obtain ⟨listed', -, place'⟩ := table.mem_contenders.mp contender'
    exact ⟨a, b, listed, listed', (place_lt_iff place place').mp before, agreeing, word⟩
  · rintro ⟨a, b, listed, listed', before, agreeing, word⟩
    obtain ⟨raw, carried, carried'⟩ := Instruction.agree_iff_exists.mp agreeing
    have opcode : b.opcode = a.opcode := (Instruction.opcode_of_isMatch carried').trans
      (Instruction.opcode_of_isMatch carried).symm
    obtain ⟨rank, place⟩ := exists_place order (List.mem_of_getElem? listed)
    obtain ⟨rank', place'⟩ := exists_place order (List.mem_of_getElem? listed')
    rw [opcode] at place'
    have ranked := (place_lt_iff place place').mpr before
    have several : 1 < (masksOf instructions a.opcode).length := by
      obtain ⟨bound, -⟩ := List.idxOf?_eq_some_iff.mp place'
      rw [(TrialOrder.sort_perm order _).length_eq] at bound
      omega
    refine ⟨(a.opcode, _), Plan.mem_trials.mpr ⟨several, rfl⟩, mem_overlapsAmong_iff.mpr ?_⟩
    exact ⟨rank, rank', a, b, table.mem_contenders.mpr ⟨listed, rfl, place⟩,
      table.mem_contenders.mpr ⟨listed', opcode, place'⟩, ranked, agreeing, word⟩

theorem opcode_of_mem_overlapsAmong (member : o ∈ t.overlapsAmong opcode masks) :
    ∃ a, instructions[o.winner]? = some a ∧ a.opcode = opcode := by
  obtain ⟨_, _, a, _, contender, -⟩ := mem_overlapsAmong_iff.mp member
  obtain ⟨listed, own, -⟩ := table.mem_contenders.mp contender
  exact ⟨a, listed, own⟩

/-- No two overlaps agree in both the winner and the shadowed instruction. -/
theorem overlaps_nodup : (t.overlaps.map fun o => (o.winner, o.shadowed)).Nodup := by
  rw [List.Nodup, List.pairwise_map, overlaps, List.pairwise_flatMap]
  constructor
  · rintro ⟨opcode, masks⟩ -
    refine (t.overlapsAmong_pairwise_lt opcode masks).imp fun {o o'} before same => ?_
    obtain ⟨winner, shadowed⟩ := Prod.mk.inj same
    omega
  · -- Winners under different opcodes are different instructions.
    have ascending := Plan.trials_pairwise_lt order (MaskGroups.ofInstructions instructions)
    rw [← table.plan_eq] at ascending
    refine ascending.imp ?_
    rintro ⟨opcode, masks⟩ ⟨opcode', masks'⟩ before o member o' member' same
    obtain ⟨a, listed, own⟩ := table.opcode_of_mem_overlapsAmong member
    obtain ⟨a', listed', own'⟩ := table.opcode_of_mem_overlapsAmong member'
    rw [(Prod.mk.inj same).1, listed', Option.some.injEq] at listed
    rw [← own, ← own', listed] at before
    exact Nat.lt_irrefl _ before

/-- Instructions that match a common word and are not the same differ in their masks. -/
theorem before_or_before {raw : Word} {n m : Nat} {a b : Instruction}
    (listed : instructions[n]? = some a) (listed' : instructions[m]? = some b) (ne : n ≠ m)
    (carried : a.isMatch raw = true) (carried' : b.isMatch raw = true) :
    order.Before a.mask b.mask ∨ order.Before b.mask a.mask := by
  by_contra neither
  rw [not_or] at neither
  have mask := TrialOrder.eq_of_not_before neither.1 neither.2
  refine ne (table.ordinal_unique listed listed' mask ?_)
  rw [← Instruction.isMatch_iff.mp carried, ← Instruction.isMatch_iff.mp carried', mask]

/-- One instruction is listed as shadowed by another if some word matches both and the other is tried
before. -/
theorem exists_overlap_iff {n m : Nat} {a b : Instruction} (listed : instructions[n]? = some a)
    (listed' : instructions[m]? = some b) :
    (∃ o ∈ t.overlaps, o.winner = n ∧ o.shadowed = m) ↔
      order.Before a.mask b.mask ∧ ∃ raw, a.isMatch raw = true ∧ b.isMatch raw = true := by
  constructor
  · rintro ⟨o, member, rfl, rfl⟩
    obtain ⟨a', b', listedA, listedB, before, agreeing, -⟩ := table.mem_overlaps_iff.mp member
    obtain rfl := Option.some.inj (listed.symm.trans listedA)
    obtain rfl := Option.some.inj (listed'.symm.trans listedB)
    exact ⟨before, Instruction.agree_iff_exists.mp agreeing⟩
  · rintro ⟨before, common⟩
    exact ⟨⟨n, m, a.value ||| b.value⟩, table.mem_overlaps_iff.mpr
      ⟨a, b, listed, listed', before, Instruction.agree_iff_exists.mpr common, rfl⟩, rfl, rfl⟩

/-- The word of an overlap is matched by both instructions. -/
theorem isMatch_word {a b : Instruction} (member : o ∈ t.overlaps)
    (listed : instructions[o.winner]? = some a) (listed' : instructions[o.shadowed]? = some b) :
    a.isMatch o.word = true ∧ b.isMatch o.word = true := by
  obtain ⟨a', b', listedA, listedB, -, agreeing, word⟩ := table.mem_overlaps_iff.mp member
  obtain rfl := Option.some.inj (listed.symm.trans listedA)
  obtain rfl := Option.some.inj (listed'.symm.trans listedB)
  rw [word]
  exact Instruction.isMatch_or_of_agree agreeing

/-- There are no overlaps if no word matches two instructions. -/
theorem overlaps_eq_nil_iff : t.overlaps = [] ↔
    ∀ (raw : Word) (n m : Nat) (a b : Instruction), instructions[n]? = some a →
      instructions[m]? = some b → a.isMatch raw = true → b.isMatch raw = true → n = m := by
  constructor
  · intro none raw n m a b listed listed' carried carried'
    by_contra ne
    have noOverlap {n m : Nat} : ¬ ∃ o ∈ t.overlaps, o.winner = n ∧ o.shadowed = m := by
      rw [none]
      rintro ⟨o, member, -⟩
      exact absurd member List.not_mem_nil
    rcases table.before_or_before listed listed' ne carried carried' with before | before
    · exact noOverlap ((table.exists_overlap_iff listed listed').mpr
        ⟨before, raw, carried, carried'⟩)
    · exact noOverlap ((table.exists_overlap_iff listed' listed).mpr
        ⟨before, raw, carried', carried⟩)
  · intro unique
    rw [List.eq_nil_iff_forall_not_mem]
    intro o member
    obtain ⟨a, b, listed, listed', before, agreeing, -⟩ := table.mem_overlaps_iff.mp member
    obtain ⟨raw, carried, carried'⟩ := Instruction.agree_iff_exists.mp agreeing
    have same := unique raw _ _ a b listed listed' carried carried'
    rw [same, listed', Option.some.injEq] at listed
    exact TrialOrder.Before.irrefl order _ (listed ▸ before)

/-- An instruction that matches a word and does not get it is shadowed by the one that does. -/
theorem exists_overlap_of_decode {raw : Word} {d : Decoded} {m : Nat} {b : Instruction}
    (decoded : t.decode raw = .ok d) (listed : instructions[m]? = some b)
    (carried : b.isMatch raw = true) (ne : d.ordinal ≠ m) :
    ∃ o ∈ t.overlaps, o.winner = d.ordinal ∧ o.shadowed = m := by
  obtain ⟨a, rule, wins, -, -⟩ := table.decode_eq_ok_iff.mp decoded
  refine (table.exists_overlap_iff wins.listed listed).mpr ⟨?_, raw, wins.isMatch, carried⟩
  exact (table.before_or_before wins.listed listed ne wins.isMatch carried).resolve_right
    (wins.first b (List.mem_of_getElem? listed) carried)

end Table.DerivedFrom

/-- The overlaps list the pairs of instructions that some word matches both of, each once, under the
one that is tried first, and with such a word. There are none exactly if every word matches one
instruction at most, and an instruction that loses a word is listed with the winner. -/
theorem overlaps_exact {order : TrialOrder} {instructions : List Instruction} {t : Table}
    (built : Table.ofInstructions order instructions = .ok t) :
    (∀ (n m : Nat) (a b : Instruction), instructions[n]? = some a → instructions[m]? = some b →
      ((∃ o ∈ t.overlaps, o.winner = n ∧ o.shadowed = m) ↔
        order.Before a.mask b.mask ∧ ∃ raw, a.isMatch raw = true ∧ b.isMatch raw = true) ∧
      (t.overlaps.map fun o => (o.winner, o.shadowed)).count (n, m) ≤ 1 ∧
      ∀ o ∈ t.overlaps, o.winner = n → o.shadowed = m →
        a.isMatch o.word = true ∧ b.isMatch o.word = true) ∧
    (t.overlaps = [] ↔ ∀ (raw : Word) (n m : Nat) (a b : Instruction),
      instructions[n]? = some a → instructions[m]? = some b →
        a.isMatch raw = true → b.isMatch raw = true → n = m) ∧
    ∀ (raw : Word) (d : Decoded) (m : Nat) (b : Instruction), t.decode raw = .ok d →
      instructions[m]? = some b → b.isMatch raw = true → d.ordinal ≠ m →
        ∃ o ∈ t.overlaps, o.winner = d.ordinal ∧ o.shadowed = m := by
  have table := Table.derivedFrom_of_ofInstructions built
  refine ⟨fun n m a b listed listed' => ⟨table.exists_overlap_iff listed listed',
    List.nodup_iff_count_le_one.mp table.overlaps_nodup _, ?_⟩, table.overlaps_eq_nil_iff,
    fun _ _ _ _ => table.exists_overlap_of_decode⟩
  rintro o member rfl rfl
  exact table.isMatch_word member listed listed'

/-- The instruction that is carved out of another one is listed as its winner. -/
theorem overlaps_exact_overlapping : ∃ t,
    Table.ofInstructions .specificity Overlapping.instructions = .ok t ∧
      ∃ o ∈ t.overlaps, o.winner = 1 ∧ o.shadowed = 0 ∧
        Overlapping.ecall.isMatch o.word = true ∧ Overlapping.system.isMatch o.word = true := by
  obtain ⟨t, built⟩ := Overlapping.exists_table
  obtain ⟨exact, -, -⟩ := overlaps_exact built
  obtain ⟨listed, -, common⟩ := exact 1 0 Overlapping.ecall Overlapping.system rfl rfl
  obtain ⟨o, member, winner, shadowed⟩ := listed.mpr ⟨by decide, 0x73, by decide, by decide⟩
  exact ⟨t, built, o, member, winner, shadowed, common o member winner shadowed⟩

end DecodeTables
