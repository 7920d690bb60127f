import DecodeTables.SelfCheck
import DecodeTables.Proofs.RoundTrip

/-!
# What a self-check finds

A self-check encodes every instruction with two sets of operands: those that its slots would read
from the word without bits, and those from the word with every bit (`Rule.extremes_eq`). For operands
that are read from some word nothing can go wrong but one thing. They are accepted, the word that they
are encoded as is decoded, and if it is decoded as the instruction itself, the operands agree
(`Table.DerivedFrom.checkWord_filled`). So a self-check fails only with a word that is decoded as
another instruction, and with the first such word (`selfCheck_exact`).
-/

namespace DecodeTables

namespace Rule

/-- The operands that the slots of a rule would read from a word, with every register. -/
def filled (rule : Rule) (w : Word) : Operands where
  rs1 := some (w.extractLsb' 15 5).toNat
  rs2 := some (w.extractLsb' 20 5).toNat
  rd := some (w.extractLsb' 7 5).toNat
  imm := rule.immediate.decode? w

variable {rule : Rule} {w v mask : Word}

theorem extremes_eq (rule : Rule) :
    rule.extremes = [rule.filled 0, rule.filled (BitVec.allOnes 32)] := rfl

theorem accepts_filled (rule : Rule) (w : Word) : rule.Accepts (rule.filled w) where
  register_lt := by
    simp only [List.mem_cons, List.not_mem_nil, or_false, forall_eq_or_imp, forall_eq]
    refine ⟨?_, ?_, ?_⟩ <;> intro index read <;> rw [← Option.some.inj read]
    · exact (w.extractLsb' 15 5).isLt
    · exact (w.extractLsb' 20 5).isLt
    · exact (w.extractLsb' 7 5).isLt
  imm_fits _ decoded := Immediate.fits_of_decode? decoded

/-- Registers without a slot are left out. -/
theorem place_filled : rule.place (rule.filled w) = w &&& rule.bits := by
  have register (used : Bool) (index shift : Nat) :
      placeRegister used (some index) shift =
        placeRegister used (if used then some index else none) shift := by
    cases used <;> rfl
  rw [← place_extract]
  simp only [place, filled, extract, ← register]

/-- A register is read alike from words that have the same bits in its slot. -/
theorem register_eq_of_slot {used : Bool} {shift : Nat} (bound : shift + 4 < 32)
    (same : ∀ k, (registerBits used shift).getLsbD k = true → v.getLsbD k = w.getLsbD k) :
    (if used then some (v.extractLsb' shift 5).toNat else none) =
      (some (w.extractLsb' shift 5).toNat).filter fun _ => used := by
  cases used with
  | false => rfl
  | true =>
    rw [if_pos rfl, extractLsb'_congr bound same]
    rfl

/-- Immediates of words that have the same bits outside a mask are the same outside the mask. -/
theorem immediate_eq_of_slot {layout : Immediate} {a b : Int} (placed : layout.decode? w = some a)
    (found : layout.decode? v = some b)
    (same : ∀ k, layout.bits.getLsbD k = true → mask.getLsbD k = false →
      v.getLsbD k = w.getLsbD k) :
    layout.encode a &&& (layout.bits &&& ~~~mask) =
      layout.encode b &&& (layout.bits &&& ~~~mask) := by
  rw [Immediate.encode_of_decode? placed, Immediate.encode_of_decode? found, Word.and_eq_and_iff]
  intro k inside
  rw [BitVec.getLsbD_and, BitVec.getLsbD_not, Bool.and_eq_true, Bool.and_eq_true,
    Bool.not_eq_true'] at inside
  obtain ⟨own, -, free⟩ := inside
  rw [BitVec.getLsbD_and, BitVec.getLsbD_and, same k own free]

/-- Operands agree with what is read from a word that has the same bits wherever a slot has a bit
that is not literal. -/
theorem agree_filled (register : ∀ slot, slot ≠ Slot.immediate → ∀ k,
      (rule.slotBits slot).getLsbD k = true → mask.getLsbD k = false)
    (same : ∀ k, rule.bits.getLsbD k = true → mask.getLsbD k = false → v.getLsbD k = w.getLsbD k) :
    rule.agree mask (rule.filled w) (rule.extract v) = true := by
  have slot (slot : Slot) (k : Nat) (own : (rule.slotBits slot).getLsbD k = true)
      (free : mask.getLsbD k = false) : v.getLsbD k = w.getLsbD k :=
    same k (getLsbD_bits.mpr ⟨slot, own⟩) free
  have rs1 : (rule.extract v).rs1 = (rule.filled w).rs1.filter fun _ => rule.rs1 :=
    register_eq_of_slot (by decide) fun k own =>
      slot .rs1 k own (register .rs1 (by decide) k own)
  have rs2 : (rule.extract v).rs2 = (rule.filled w).rs2.filter fun _ => rule.rs2 :=
    register_eq_of_slot (by decide) fun k own =>
      slot .rs2 k own (register .rs2 (by decide) k own)
  have rd : (rule.extract v).rd = (rule.filled w).rd.filter fun _ => rule.rd :=
    register_eq_of_slot (by decide) fun k own =>
      slot .rd k own (register .rd (by decide) k own)
  have present : (rule.filled w).imm.isSome = (rule.extract v).imm.isSome :=
    Bool.eq_iff_iff.mpr ((rule.immediate.isSome_decode? w).trans
      (rule.immediate.isSome_decode? v).symm)
  unfold agree
  rw [rs1, rs2, rd, beq_self_eq_true, beq_self_eq_true, beq_self_eq_true, Bool.true_and,
    Bool.true_and, Bool.true_and]
  cases placed : (rule.filled w).imm with
  | none =>
    rw [placed, Option.isSome_none] at present
    rw [Option.not_isSome_iff_eq_none.mp (Bool.eq_false_iff.mp present.symm)]
  | some a =>
    rw [placed, Option.isSome_some] at present
    obtain ⟨b, found⟩ := Option.isSome_iff_exists.mp present.symm
    rw [found]
    exact beq_iff_eq.mpr (immediate_eq_of_slot placed found (slot .immediate))

end Rule

/-- The word of an instruction that has the bits of another word in its slots. -/
def Instruction.filledWord (i : Instruction) (rule : Rule) (w : Word) : Word :=
  i.value ||| w &&& rule.bits &&& ~~~i.mask

namespace Instruction

variable {i : Instruction} {rule : Rule} {w : Word} {k : Nat}

theorem filledWord_zero (i : Instruction) (rule : Rule) : i.filledWord rule 0 = i.value := by
  simp [filledWord]

theorem filledWord_allOnes :
    i.filledWord rule (BitVec.allOnes 32) = i.value ||| rule.bits &&& ~~~i.mask := by
  rw [filledWord, BitVec.allOnes_and]

variable (derived : Rule.ofFields? i.fields = some rule)
include derived

theorem encode?_filled : i.encode? (rule.filled w) = some (i.filledWord rule w) :=
  (encode?_eq_some_iff derived).mpr ⟨rule.accepts_filled w, by rw [Rule.place_filled, filledWord]⟩

theorem isMatch_filledWord : i.isMatch (i.filledWord rule w) = true :=
  isMatch_of_encode? derived (encode?_filled derived)

/-- A slot holds the bits that were put in, where they are not literal. -/
theorem getLsbD_filledWord (own : rule.bits.getLsbD k = true) (free : i.mask.getLsbD k = false) :
    (i.filledWord rule w).getLsbD k = w.getLsbD k := by
  rw [getLsbD_of_encode? derived (encode?_filled derived) free, Rule.place_filled,
    BitVec.getLsbD_and, own, Bool.and_true]

end Instruction

/-! ## Passes over all words -/

namespace Table

/-- The words that a self-check comes to, by ordinal: for each instruction the one with every
operand bit clear, then the one with every operand bit set. -/
def visits (t : Table) : List (Nat × Word) :=
  t.members.zipIdx.flatMap fun ((i, rule), n) =>
    [(n, i.value), (n, i.value ||| rule.bits &&& ~~~i.mask)]

/-- A word of an instruction is decoded as another one, and the failure names both. -/
def Mistaken (t : Table) (visit : Nat × Word) (e : SelfCheckFailure) : Prop :=
  ∃ d i j, t.decode visit.2 = .ok d ∧ d.ordinal ≠ visit.1 ∧
    t.instructions[visit.1]? = some i ∧ t.instructions[d.ordinal]? = some j ∧
    e = .decodedAs i.id visit.2 j.id ∧
    e.message =
      Text.Hex.padded visit.2 ++ " encodes `" ++ i.id ++ "` but decodes as `" ++ j.id ++ "`"

/-- The words that operands are read from, each with the instruction that it is read for. -/
def samples (t : Table) : List (Nat × Instruction × Rule × Word) :=
  t.members.zipIdx.flatMap fun ((i, rule), n) =>
    [(n, i, rule, 0), (n, i, rule, BitVec.allOnes 32)]

theorem checks_eq (t : Table) :
    t.checks = t.samples.map fun s => (s.1, s.2.1, s.2.2.1, s.2.2.1.filled s.2.2.2) := by
  rw [samples, List.map_flatMap]
  refine congrArg (t.members.zipIdx.flatMap ·) (funext fun member => ?_)
  obtain ⟨⟨i, rule⟩, n⟩ := member
  simp only [Rule.extremes_eq, List.map_cons, List.map_nil]

theorem visits_eq (t : Table) :
    t.visits = t.samples.map fun s => (s.1, s.2.1.filledWord s.2.2.1 s.2.2.2) := by
  rw [samples, List.map_flatMap]
  refine congrArg (t.members.zipIdx.flatMap ·) (funext fun member => ?_)
  obtain ⟨⟨i, rule⟩, n⟩ := member
  simp only [List.map_cons, List.map_nil, Instruction.filledWord_zero,
    Instruction.filledWord_allOnes]

namespace DerivedFrom

variable {order : TrialOrder} {instructions : List Instruction} {t : Table} {n : Nat}
  {i : Instruction} {rule : Rule} {w : Word} {e : SelfCheckFailure}
  (table : DerivedFrom order instructions t)
include table

theorem mem_samples : (n, i, rule, w) ∈ t.samples ↔
    instructions[n]? = some i ∧ Rule.ofFields? i.fields = some rule ∧
      (w = 0 ∨ w = BitVec.allOnes 32) := by
  rw [samples, members, table.instructions_eq, List.mem_flatMap]
  constructor
  · intro member
    obtain ⟨⟨⟨j, rule'⟩, m⟩, listed, sample⟩ := member
    obtain ⟨listed, derived⟩ := table.getElem?_zip.mp (List.mem_zipIdx_iff_getElem?.mp listed)
    rcases List.mem_cons.mp sample with same | sample
    · cases same
      exact ⟨listed, derived, .inl rfl⟩
    · cases List.mem_singleton.mp sample
      exact ⟨listed, derived, .inr rfl⟩
  · intro sampled
    obtain ⟨listed, derived, extreme⟩ := sampled
    refine ⟨((i, rule), n),
      List.mem_zipIdx_iff_getElem?.mpr (table.getElem?_zip.mpr ⟨listed, derived⟩), ?_⟩
    rcases extreme with rfl | rfl
    · exact List.mem_cons_self
    · exact List.mem_cons_of_mem _ List.mem_cons_self

/-- A word that is decoded is mistaken unless it is decoded as its own instruction. -/
theorem exists_mistaken_iff {d : Decoded} (listed : instructions[n]? = some i)
    (decoded : t.decode w = .ok d) : (∃ e, t.Mistaken (n, w) e) ↔ d.ordinal ≠ n := by
  constructor
  · intro mistaken
    obtain ⟨_, d', _, _, decoded', ne, -⟩ := mistaken
    obtain rfl := Except.ok.inj (decoded.symm.trans decoded')
    exact ne
  · intro ne
    obtain ⟨j, _, wins, -, -⟩ := table.decode_eq_ok_iff.mp decoded
    rw [← table.instructions_eq] at listed wins
    exact ⟨_, d, i, j, decoded, ne, listed, wins.listed, rfl, rfl⟩

theorem exists_decode_filledWord (listed : instructions[n]? = some i)
    (derived : Rule.ofFields? i.fields = some rule) (w : Word) :
    ∃ d, t.decode (i.filledWord rule w) = .ok d :=
  table.exists_decode_of_isMatch (List.mem_of_getElem? listed)
    (Instruction.isMatch_filledWord derived)

/-- Operands that are read from a word are encoded as a word that is decoded, and the one thing that
can go wrong with it is that it is decoded as another instruction. -/
theorem checkWord_filled (listed : instructions[n]? = some i)
    (derived : Rule.ofFields? i.fields = some rule) (w : Word) :
    t.checkWord n i rule (rule.filled w) = .error e ↔ t.Mistaken (n, i.filledWord rule w) e := by
  have encoded := Instruction.encode?_filled (w := w) derived
  obtain ⟨d, decoded⟩ := table.exists_decode_filledWord listed derived w
  obtain ⟨j, rule', wins, derived', read⟩ := table.decode_eq_ok_iff.mp decoded
  unfold checkWord
  simp only [encoded, decoded]
  by_cases own : d.ordinal = n
  · have agree : rule.agree i.mask (rule.filled w) d.operands = true := by
      obtain rfl := Option.some.inj (listed.symm.trans (own ▸ wins.listed))
      obtain rfl := Option.some.inj (derived.symm.trans derived')
      rw [read]
      exact Rule.agree_filled
        (fun slot isRegister k => Instruction.mask_of_register derived isRegister)
        fun k => Instruction.getLsbD_filledWord derived
    rw [if_neg (not_not.mpr own), agree]
    constructor
    · intro failed
      cases failed
    · intro mistaken
      exact absurd own ((table.exists_mistaken_iff listed decoded).mp ⟨e, mistaken⟩)
  · rw [if_pos own, table.name_eq listed, table.name_eq wins.listed, Except.error.injEq]
    constructor
    · intro failed
      subst failed
      rw [← table.instructions_eq] at listed wins
      exact ⟨d, i, j, decoded, own, listed, wins.listed, rfl, rfl⟩
    · intro mistaken
      obtain ⟨d', i', j', decoded', -, listed', listedWinner, same, -⟩ := mistaken
      obtain rfl := Except.ok.inj (decoded.symm.trans decoded')
      rw [table.instructions_eq] at listed' listedWinner
      obtain rfl := Option.some.inj (listed.symm.trans listed')
      obtain rfl := Option.some.inj (wins.listed.symm.trans listedWinner)
      exact same.symm

theorem checkWord_filled_eq_ok (listed : instructions[n]? = some i)
    (derived : Rule.ofFields? i.fields = some rule) (w : Word) :
    t.checkWord n i rule (rule.filled w) = .ok () ↔
      ∃ d, t.decode (i.filledWord rule w) = .ok d ∧ d.ordinal = n := by
  obtain ⟨d, decoded⟩ := table.exists_decode_filledWord listed derived w
  have failed : (∃ e, t.checkWord n i rule (rule.filled w) = .error e) ↔ d.ordinal ≠ n := by
    rw [← table.exists_mistaken_iff listed decoded]
    exact exists_congr fun _ => table.checkWord_filled listed derived w
  constructor
  · intro passed
    refine ⟨d, decoded, ?_⟩
    by_contra other
    obtain ⟨e, refused⟩ := failed.mpr other
    cases passed.symm.trans refused
  · intro kept
    obtain ⟨d', decoded', own⟩ := kept
    obtain rfl := Except.ok.inj (decoded.symm.trans decoded')
    cases checked : t.checkWord n i rule (rule.filled w) with
    | ok _ => rfl
    | error e => exact absurd own (failed.mp ⟨e, checked⟩)

/-- The pass over all checks fails with the first word that is mistaken. -/
theorem forM_checks_eq_error_iff :
    (t.checks.forM fun (n, i, rule, operands) => t.checkWord n i rule operands) = .error e ↔
      FirstFault (fun _ => t.Mistaken) t.visits e := by
  rw [forM_eq_error_iff, checks_eq, visits_eq, firstFault_map, firstFault_map]
  refine firstFault_congr fun front sample back split e => ?_
  obtain ⟨n, i, rule, w⟩ := sample
  obtain ⟨listed, derived, -⟩ :=
    table.mem_samples.mp (split ▸ List.mem_append_right front List.mem_cons_self)
  exact table.checkWord_filled listed derived w

/-- The pass gets to its end if both words of every instruction are decoded as the instruction. -/
theorem forM_checks_eq_ok_iff :
    (t.checks.forM fun (n, i, rule, operands) => t.checkWord n i rule operands) = .ok () ↔
      ∀ (n : Nat) (i : Instruction) (rule : Rule), instructions[n]? = some i → i.rule = .ok rule →
        ∀ w ∈ [i.value, i.value ||| rule.bits &&& ~~~i.mask],
          ∃ d, t.decode w = .ok d ∧ d.ordinal = n := by
  rw [forM_eq_ok_iff, checks_eq, List.forall_mem_map]
  constructor
  · intro passed n i rule listed derived
    have derived := Instruction.rule_eq_ok.mp derived
    have kept (w : Word) (extreme : w = 0 ∨ w = BitVec.allOnes 32) :=
      (table.checkWord_filled_eq_ok listed derived w).mp
        (passed _ (table.mem_samples.mpr ⟨listed, derived, extreme⟩))
    have zero := kept 0 (.inl rfl)
    have ones := kept (BitVec.allOnes 32) (.inr rfl)
    rw [Instruction.filledWord_zero] at zero
    rw [Instruction.filledWord_allOnes] at ones
    simp only [List.mem_cons, List.not_mem_nil, or_false, forall_eq_or_imp, forall_eq]
    exact ⟨zero, ones⟩
  · intro kept sample member
    obtain ⟨n, i, rule, w⟩ := sample
    obtain ⟨listed, derived, extreme⟩ := table.mem_samples.mp member
    refine (table.checkWord_filled_eq_ok listed derived w).mpr
      (kept n i rule listed (Instruction.rule_eq_ok.mpr derived) _ ?_)
    rcases extreme with rfl | rfl
    · rw [Instruction.filledWord_zero]
      exact List.mem_cons_self
    · rw [Instruction.filledWord_allOnes]
      exact List.mem_cons_of_mem _ List.mem_cons_self

theorem length_checks : t.checks.length = 2 * instructions.length := by
  have size : t.members.length = instructions.length := by
    rw [members, table.instructions_eq, List.length_zip, length_of_mapM table.rules_ok,
      Nat.min_self]
  have pairs : t.samples.length = (t.members.zipIdx.map fun _ => 2).sum := by
    rw [samples, List.length_flatMap]
    rfl
  rw [checks_eq, List.length_map, pairs, List.map_const', List.sum_replicate_nat,
    List.length_zipIdx, size, Nat.mul_comm]

theorem selfCheck_eq_ok_iff {r : SelfCheck} : t.selfCheck = .ok r ↔
    r = ⟨instructions.length, 2 * instructions.length⟩ ∧
      (t.checks.forM fun (n, i, rule, operands) => t.checkWord n i rule operands) = .ok () := by
  have size : t.numbering.size = instructions.length := by
    rw [Numbering.size, table.names_eq, List.length_map]
  rw [selfCheck, bind_eq_ok, size, table.length_checks]
  constructor
  · intro passed
    obtain ⟨_, checked, same⟩ := passed
    exact ⟨(Except.ok.inj same).symm, checked⟩
  · intro passed
    obtain ⟨rfl, checked⟩ := passed
    exact ⟨(), checked, rfl⟩

theorem selfCheck_eq_error_iff :
    t.selfCheck = .error e ↔ FirstFault (fun _ => t.Mistaken) t.visits e := by
  rw [selfCheck, bind_eq_error, table.forM_checks_eq_error_iff]
  constructor
  · intro failed
    rcases failed with first | ⟨_, _, failed⟩
    · exact first
    · cases failed
  · exact .inl

/-- Without overlaps a word that an instruction matches is decoded as the instruction. -/
theorem exists_decode_of_overlaps_eq_nil (none : t.overlaps = [])
    (listed : instructions[n]? = some i) (carried : i.isMatch w = true) :
    ∃ d, t.decode w = .ok d ∧ d.ordinal = n := by
  obtain ⟨d, decoded⟩ :=
    table.exists_decode_of_isMatch (List.mem_of_getElem? listed) carried
  obtain ⟨j, _, wins, -, -⟩ := table.decode_eq_ok_iff.mp decoded
  have same := table.overlaps_eq_nil_iff.mp none w _ _ j i wins.listed listed wins.isMatch carried
  exact ⟨d, decoded, same⟩

end DerivedFrom

end Table

/-- A self-check encodes the operands of each instruction as the two words that it visits, in the
order of ordinals. It passes if all of these words are decoded as their own instruction, and otherwise it
fails with the first that is decoded as another one. There is none without overlaps. -/
theorem selfCheck_exact {order : TrialOrder} {instructions : List Instruction} {t : Table}
    (built : Table.ofInstructions order instructions = .ok t) :
    (t.checks.map fun c => (c.1, c.2.1.encode? c.2.2.2)) = t.visits.map (fun v => (v.1, some v.2)) ∧
    (∀ r, t.selfCheck = .ok r ↔ r = ⟨instructions.length, 2 * instructions.length⟩ ∧
      ∀ (n : Nat) (i : Instruction) (rule : Rule), instructions[n]? = some i → i.rule = .ok rule →
        ∀ w ∈ [i.value, i.value ||| rule.bits &&& ~~~i.mask],
          ∃ d, t.decode w = .ok d ∧ d.ordinal = n) ∧
    (∀ e, t.selfCheck = .error e ↔ FirstFault (fun _ => t.Mistaken) t.visits e) ∧
    (t.overlaps = [] →
      t.selfCheck = .ok ⟨instructions.length, 2 * instructions.length⟩) := by
  have table := Table.derivedFrom_of_ofInstructions built
  refine ⟨?_, fun r => ?_, fun e => table.selfCheck_eq_error_iff, fun none => ?_⟩
  · rw [Table.checks_eq, Table.visits_eq, List.map_map, List.map_map]
    refine List.map_congr_left fun sample member => ?_
    obtain ⟨n, i, rule, w⟩ := sample
    obtain ⟨-, derived, -⟩ := table.mem_samples.mp member
    exact congrArg (n, ·) (Instruction.encode?_filled derived)
  · rw [table.selfCheck_eq_ok_iff, table.forM_checks_eq_ok_iff]
  · rw [table.selfCheck_eq_ok_iff, table.forM_checks_eq_ok_iff]
    refine ⟨rfl, fun n i rule listed derived w visited => ?_⟩
    have derived := Instruction.rule_eq_ok.mp derived
    refine table.exists_decode_of_overlaps_eq_nil none listed ?_
    simp only [List.mem_cons, List.not_mem_nil, or_false] at visited
    rcases visited with rfl | rfl
    · rw [← i.filledWord_zero rule]
      exact Instruction.isMatch_filledWord derived
    · rw [← Instruction.filledWord_allOnes]
      exact Instruction.isMatch_filledWord derived

/-- The word that is carved out of an instruction is the first that goes wrong; a branch alone
passes. -/
theorem selfCheck_exact_overlapping : ∃ t u,
    Table.ofInstructions .specificity Overlapping.instructions = .ok t ∧
      t.selfCheck = .error (.decodedAs "system" 0x73 "ecall") ∧
      Table.ofInstructions .specificity [Overlapping.beq] = .ok u ∧ u.selfCheck = .ok ⟨1, 2⟩ := by
  obtain ⟨t, built⟩ := Overlapping.exists_table
  obtain ⟨u, built'⟩ : ∃ u, Table.ofInstructions .specificity [Overlapping.beq] = .ok u :=
    exists_of_isOk (by decide +kernel)
  have table := Table.derivedFrom_of_ofInstructions built
  obtain ⟨-, -, fails, -⟩ := selfCheck_exact built
  obtain ⟨-, -, -, passes⟩ := selfCheck_exact built'
  have decoded := Overlapping.decode_ecall table
  have visits : ∃ back, t.visits = (0, 0x73) :: back := by
    have rules : t.rules = [⟨true, false, true, .i⟩, ⟨false, false, false, .absent⟩,
        ⟨true, true, false, .b⟩] := Except.ok.inj (table.rules_ok.symm.trans (by decide))
    rw [Table.visits, Table.members, table.instructions_eq, rules]
    exact ⟨_, rfl⟩
  obtain ⟨back, visits⟩ := visits
  have faultless : Faultless (fun _ => t.Mistaken) [] := faultless_iff_forall_mem.mpr (by simp)
  refine ⟨t, u, built, (fails _).mpr ⟨[], _, back, visits, faultless, ?_⟩, built', passes ?_⟩
  · exact ⟨_, Overlapping.system, Overlapping.ecall, decoded, by decide,
      by rw [table.instructions_eq]; rfl, by rw [table.instructions_eq]; rfl, rfl, rfl⟩
  · have alone := Table.derivedFrom_of_ofInstructions built'
    refine alone.overlaps_eq_nil_iff.mpr fun raw n m a b listed listed' _ _ => ?_
    obtain ⟨bound, -⟩ := List.getElem?_eq_some_iff.mp listed
    obtain ⟨bound', -⟩ := List.getElem?_eq_some_iff.mp listed'
    simp only [List.length_singleton] at bound bound'
    omega

end DecodeTables
