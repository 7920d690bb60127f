import DecodeTables.Table
import DecodeTables.Proofs.Plan
import DecodeTables.Proofs.ProbeTable

/-!
# Built tables

`Table.DerivedFrom` collects what each stage of building leaves in a table. From it follows what
later stages read: `DerivedFrom.exists_rule` (every instruction has a rule), `DerivedFrom.find?_iff`
(a probe finds the ordinal and the rule of the instruction with the mask and the literal bits) and
`DerivedFrom.ordinal_unique` (there is one such instruction at most). `Buildable` is what
instructions have to meet for building to succeed (`exists_ofInstructions_iff`).
-/

namespace DecodeTables

theorem Instruction.rule_eq_ok {i : Instruction} {rule : Rule} :
    i.rule = .ok rule ↔ Rule.ofFields? i.fields = some rule := by
  unfold Instruction.rule
  split
  · rename_i derived
    rw [derived, Except.ok.injEq, Option.some.injEq]
  · rename_i none
    rw [none]
    exact ⟨(nomatch ·), (nomatch ·)⟩

namespace Table

/-- A table is what the stages of building derive from instructions. -/
structure DerivedFrom (order : TrialOrder) (instructions : List Instruction) (t : Table) : Prop where
  instructions_eq : t.instructions = instructions
  names_eq : t.numbering.names = instructions.map Instruction.id
  rules_ok : instructions.mapM Instruction.rule = .ok t.rules
  groups_eq : t.groups = MaskGroups.ofInstructions instructions
  plan_eq : t.plan = Plan.build order (MaskGroups.ofInstructions instructions)
  probes_ok : ProbeTable.build t.numbering (instructions.zip t.rules) = .ok t.probes

/-- What lets a table be built: no symbol comes twice, every instruction has a rule, and no two agree
in both mask and literal bits. -/
structure Buildable (instructions : List Instruction) : Prop where
  symbols : (instructions.map fun i => symbol i.id).Nodup
  rules : ∀ i ∈ instructions, ∃ rule, i.rule = .ok rule
  keys : (instructions.map fun i => (i.mask, i.value)).Nodup

variable {order : TrialOrder} {instructions : List Instruction} {t : Table}

theorem derivedFrom_of_ofInstructions (built : ofInstructions order instructions = .ok t) :
    DerivedFrom order instructions t := by
  unfold ofInstructions at built
  rw [bind_eq_ok] at built
  obtain ⟨numbering, numbered, built⟩ := built
  rw [bind_eq_ok] at built
  obtain ⟨rules, derived, built⟩ := built
  rw [bind_eq_ok] at built
  obtain ⟨probes, probed, built⟩ := built
  cases built
  exact ⟨rfl, Numbering.names_of_ofNames numbered, derived, rfl, rfl, probed⟩

namespace DerivedFrom

variable {n m : Nat} {i j : Instruction} {rule : Rule} {mask value : Word} {p : Probe}
  (table : DerivedFrom order instructions t)
include table

/-- Every instruction has a rule, and the table holds it under the ordinal. -/
theorem exists_rule (listed : instructions[n]? = some i) :
    ∃ rule, Rule.ofFields? i.fields = some rule ∧ t.rules[n]? = some rule := by
  have bound := (List.getElem?_eq_some_iff.mp listed).1
  rw [← length_of_mapM table.rules_ok] at bound
  have held := List.getElem?_eq_getElem bound
  obtain ⟨j, listed', derived⟩ := (getElem?_of_mapM table.rules_ok n _).mp held
  obtain rfl := Option.some.inj (listed.symm.trans listed')
  exact ⟨_, Instruction.rule_eq_ok.mp derived, held⟩

/-- The members of a table are the instructions with their rules. -/
theorem getElem?_zip : (instructions.zip t.rules)[n]? = some (i, rule) ↔
    instructions[n]? = some i ∧ Rule.ofFields? i.fields = some rule := by
  rw [List.getElem?_zip_eq_some]
  constructor
  · rintro ⟨listed, held⟩
    obtain ⟨j, listed', derived⟩ := (getElem?_of_mapM table.rules_ok n rule).mp held
    obtain rfl := Option.some.inj (listed.symm.trans listed')
    exact ⟨listed, Instruction.rule_eq_ok.mp derived⟩
  · rintro ⟨listed, derived⟩
    exact ⟨listed, (getElem?_of_mapM table.rules_ok n rule).mpr
      ⟨i, listed, Instruction.rule_eq_ok.mpr derived⟩⟩

theorem symbols_nodup : (instructions.map fun i => symbol i.id).Nodup := by
  have distinct := t.numbering.nodup
  rwa [table.names_eq, List.map_map] at distinct

/-- The identifier of an instruction is numbered with its place. -/
theorem ordinal?_eq (listed : instructions[n]? = some i) : t.numbering.ordinal? i.id = some n :=
  Numbering.ordinal?_of_getElem? (by rw [table.names_eq, List.getElem?_map, listed]; rfl)

theorem name_eq (listed : instructions[n]? = some i) : t.name n = i.id := by
  unfold Table.name Numbering.name?
  rw [table.names_eq, List.getElem?_map, listed]
  rfl

theorem represents : ProbeTable.Represents t.numbering (instructions.zip t.rules) t.probes :=
  ProbeTable.represents_of_build table.probes_ok

/-- A probe finds the instruction with the mask and the literal bits. -/
theorem find?_iff : t.probes.find? mask value = some p ↔
    ∃ n i rule, instructions[n]? = some i ∧ Rule.ofFields? i.fields = some rule ∧
      i.mask = mask ∧ i.value = value ∧ p = ⟨mask, value, n, rule⟩ := by
  rw [table.represents.find?_iff]
  constructor
  · rintro ⟨⟨i, rule⟩, member, rfl, rfl, isRow⟩
    obtain ⟨n, held⟩ := List.mem_iff_getElem?.mp member
    obtain ⟨listed, derived⟩ := table.getElem?_zip.mp held
    rw [ProbeTable.row?, table.ordinal?_eq listed] at isRow
    exact ⟨n, i, rule, listed, derived, rfl, rfl, (Option.some.inj isRow).symm⟩
  · rintro ⟨n, i, rule, listed, derived, rfl, rfl, rfl⟩
    have held := table.getElem?_zip.mpr ⟨listed, derived⟩
    refine ⟨(i, rule), List.mem_of_getElem? held, rfl, rfl, ?_⟩
    rw [ProbeTable.row?, table.ordinal?_eq listed]
    rfl

/-- Mask and literal bits determine the ordinal. -/
theorem ordinal_unique (listed : instructions[n]? = some i) (listed' : instructions[m]? = some j)
    (mask_eq : i.mask = j.mask) (value_eq : i.value = j.value) : n = m := by
  obtain ⟨rule, derived, -⟩ := table.exists_rule listed
  obtain ⟨rule', derived', -⟩ := table.exists_rule listed'
  have row := table.find?_iff.mpr ⟨n, i, rule, listed, derived, rfl, rfl, rfl⟩
  have row' := table.find?_iff.mpr ⟨m, j, rule', listed', derived', rfl, rfl, rfl⟩
  rw [mask_eq, value_eq, row'] at row
  exact (congrArg Probe.ordinal (Option.some.inj row)).symm

/-- The rows of the probe table are those of the instructions. -/
theorem mem_rows_iff : p ∈ t.probes.rows ↔ ∃ i, instructions[p.ordinal]? = some i ∧
    Rule.ofFields? i.fields = some p.rule ∧ i.mask = p.mask ∧ i.value = p.value := by
  rw [ProbeTable.mem_rows_of_build table.probes_ok]
  constructor
  · rintro ⟨⟨i, rule⟩, member, isRow⟩
    obtain ⟨n, held⟩ := List.mem_iff_getElem?.mp member
    obtain ⟨listed, derived⟩ := table.getElem?_zip.mp held
    rw [ProbeTable.row?, table.ordinal?_eq listed] at isRow
    rw [← Option.some.inj isRow]
    exact ⟨i, listed, derived, rfl, rfl⟩
  · rintro ⟨i, listed, derived, mask, value⟩
    refine ⟨(i, p.rule), List.mem_iff_getElem?.mpr ⟨_, table.getElem?_zip.mpr ⟨listed, derived⟩⟩, ?_⟩
    rw [ProbeTable.row?, table.ordinal?_eq listed, Option.map_some, mask, value]

/-- There are as many rows as instructions. -/
theorem size_probes : t.probes.size = instructions.length := by
  rw [ProbeTable.size_of_build table.probes_ok, List.length_zip, length_of_mapM table.rules_ok,
    Nat.min_self]

end DerivedFrom

section

variable {rules : List Rule} (derived : instructions.mapM Instruction.rule = .ok rules)
include derived

/-- Every instruction is zipped with a rule. -/
theorem map_fst_zip : (instructions.zip rules).map Prod.fst = instructions :=
  List.map_fst_zip (Nat.le_of_eq (length_of_mapM derived).symm)

/-- Items with rules agree in no key if their instructions do not. -/
theorem pairwise_zip_iff :
    ((instructions.zip rules).Pairwise fun a b => (a.1.mask, a.1.value) ≠ (b.1.mask, b.1.value)) ↔
      (instructions.map fun i => (i.mask, i.value)).Nodup := by
  conv_rhs => rw [← map_fst_zip derived, List.map_map, List.Nodup, List.pairwise_map]
  rfl

end

/-- Every item has a row, since its identifier is among the numbered ones. -/
theorem isSome_row? {numbering : Numbering} {rules : List Rule}
    (numbered : Numbering.ofNames (instructions.map Instruction.id) = .ok numbering) :
    ∀ item ∈ instructions.zip rules, (ProbeTable.row? numbering item).isSome = true := by
  rintro ⟨i, rule⟩ member
  obtain ⟨n, listed⟩ := List.mem_iff_getElem?.mp (List.of_mem_zip member).1
  have own : numbering.ordinal? i.id = some n := Numbering.ordinal?_of_getElem?
    (by rw [Numbering.names_of_ofNames numbered, List.getElem?_map, listed]; rfl)
  rw [ProbeTable.row?, own]
  rfl

/-- The order of trials is an order of the plan, and of nothing else in a table. -/
theorem ofInstructions_eq_map (order other : TrialOrder) (instructions : List Instruction) :
    ofInstructions order instructions =
      (ofInstructions other instructions).map fun t =>
        { t with plan := Plan.build order t.groups } := by
  unfold ofInstructions
  cases Numbering.ofNames (instructions.map Instruction.id) with
  | error e => rfl
  | ok numbering =>
    cases instructions.mapM Instruction.rule with
    | error e => rfl
    | ok rules =>
      simp only [bind, Except.bind]
      cases ProbeTable.build numbering (instructions.zip rules) <;> rfl

/-- A table can be built from instructions that meet what it takes, and from no others. -/
theorem exists_ofInstructions_iff :
    (∃ t, ofInstructions order instructions = .ok t) ↔ Buildable instructions := by
  have symbols : (instructions.map Instruction.id).map symbol =
      instructions.map fun i => symbol i.id := List.map_map
  constructor
  · rintro ⟨t, built⟩
    have table := derivedFrom_of_ofInstructions built
    exact ⟨table.symbols_nodup, exists_mapM_iff.mp ⟨_, table.rules_ok⟩,
      (pairwise_zip_iff table.rules_ok).mp table.represents.distinct⟩
  · rintro ⟨distinct, ruled, keyed⟩
    obtain ⟨numbering, numbered⟩ := Numbering.exists_ofNames_iff.mpr (symbols ▸ distinct)
    obtain ⟨rules, derived⟩ := exists_mapM_iff.mpr ruled
    obtain ⟨probes, probed⟩ := ProbeTable.exists_build_iff.mpr
      ⟨isSome_row? numbered, (pairwise_zip_iff derived).mpr keyed⟩
    simp only [ofInstructions, bind_eq_ok]
    exact ⟨_, numbering, numbered, rules, derived, probes, probed, rfl⟩

end Table

/-! ## A table with an overlap

Three instructions under two opcodes. The second is carved out of the first, so the trial order
decides its word. -/

namespace Overlapping

def system : Instruction where
  id := "system"
  encoding := "-----------------000-----1110011"
  mask := 0x707f
  value := 0x73
  fields := [.rd, .rs1, .imm12]
  extensions := []
  id_ne := by decide
  read_encoding := by decide
  opcode_literal := by decide
  fields_normal := by decide
  union_fields := by decide

def ecall : Instruction where
  id := "ecall"
  encoding := "00000000000000000000000001110011"
  mask := 0xffffffff
  value := 0x73
  fields := []
  extensions := []
  id_ne := by decide
  read_encoding := by decide
  opcode_literal := by decide
  fields_normal := by decide
  union_fields := by decide

def beq : Instruction where
  id := "beq"
  encoding := "-----------------000-----1100011"
  mask := 0x707f
  value := 0x63
  fields := [.rs1, .rs2, .bimm12hi, .bimm12lo]
  extensions := []
  id_ne := by decide
  read_encoding := by decide
  opcode_literal := by decide
  fields_normal := by decide
  union_fields := by decide

def instructions : List Instruction := [system, ecall, beq]

theorem exists_table : ∃ t, Table.ofInstructions .specificity instructions = .ok t :=
  exists_of_isOk (by decide +kernel)

end Overlapping

end DecodeTables
