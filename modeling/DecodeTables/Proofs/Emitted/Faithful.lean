import DecodeTables.Proofs.Emitted.DispatchRun
import DecodeTables.Proofs.Emitted.LookupRun

/-!
# An emitted decoder tells its table

Two tables whose decoders have the same text decode every word alike. The text is read as one module,
so the modules of the two tables are equal; from a module the arms and the trials of the table are
got back (`DerivedFrom.eq_of_text`). Decoding goes by nothing else: arms tell the patterns of the
instructions, and patterns tell the mask table and what a probe finds
(`DerivedFrom.find?_iff_patterns`).
-/

namespace DecodeTables

open Artifact Emitted

/-! ## Modules -/

namespace Emitted

/-- A text is read in one way. -/
theorem eq_of_read? {μ : Type} {read? : String → Option μ} {text text' : String} {m m' : μ}
    (read : read? text = some m) (read' : read? text' = some m') (same : text = text') : m = m' := by
  rw [same, read', Option.some.injEq] at read
  exact read.symm

theorem function?_injective : Function.Injective function? :=
  Immediate.injective_of_nodup (by decide +kernel)

theorem immediateSource?_injective : Function.Injective immediateSource? :=
  Immediate.injective_of_nodup (by decide)

/-- An arm is written with its immediate in place of the layout, and otherwise as it is. -/
theorem moduleArm_injective : Function.Injective ModuleArm.ofArm := by
  intro a b same
  obtain ⟨mask, value, symbol, rs1, rs2, rd, function⟩ := ModuleArm.mk.inj same
  have immediate := function?_injective function
  cases a
  cases b
  exact (Arm.mk.injEq ..).mpr ⟨mask, value, symbol, rs1, rs2, rd, immediate⟩

/-- An arm is told by the initializers of its lambda. -/
theorem keyedArm_injective : Function.Injective KeyedArm.ofArm := by
  intro a b same
  obtain ⟨mask, value, fields⟩ := KeyedArm.mk.inj same
  obtain ⟨-, id, rs1, rs2, rd, imm⟩ := lookup_ofArm a
  obtain ⟨-, id', rs1', rs2', rd', imm'⟩ := lookup_ofArm b
  rw [fields] at id rs1 rs2 rd imm
  have register : Function.Injective
      (Option.map fun low => Emitted.Source.byte (low + 4) low) :=
    Option.map_injective fun _ _ same => (Source.byte.inj same).2
  have symbol := (String.append_right_inj "k").mp
    (Source.item.inj (Option.some.inj (id.symm.trans id')))
  have immediate := immediateSource?_injective (imm.symm.trans imm')
  have rs1 := register (rs1.symm.trans rs1')
  have rs2 := register (rs2.symm.trans rs2')
  have rd := register (rd.symm.trans rd')
  cases a
  cases b
  exact (Arm.mk.injEq ..).mpr ⟨mask, value, symbol, rs1, rs2, rd, immediate⟩

/-- Cases are cut out of the statements of a switch again. -/
theorem flatMap_caseStatements_injective :
    Function.Injective (List.flatMap caseStatements) := by
  intro cases
  induction cases with
  | nil =>
    intro cases' same
    cases cases' with
    | nil => rfl
    | cons c rest => cases same
  | cons c rest ih =>
    intro cases' same
    cases cases' with
    | nil => cases same
    | cons c' rest' =>
      obtain ⟨label, others⟩ := List.cons.inj same
      obtain ⟨probe, others⟩ := List.cons.inj others
      obtain ⟨-, others⟩ := List.cons.inj others
      rw [Prod.ext (Statement.label.inj label) probe, ih others]

/-- The opcode and the masks of a case that tries several. -/
def trial? : Nat × Statement → Option (Nat × List Word)
  | (opcode, .probeEach masks) => some (opcode, masks)
  | _ => none

theorem filterMap_trial? (d : SwitchDecoder) : (switchCases d).filterMap trial? = d.trials := by
  have singles : trial? ∘ (fun e : Nat × Word => (e.1, Statement.probe e.2 e.2)) =
      fun _ => none := rfl
  have trials : trial? ∘ (fun e : Nat × List Word => (e.1, Statement.probeEach e.2)) = some := rfl
  rw [switchCases, List.filterMap_append, List.filterMap_map, List.filterMap_map, singles, trials,
    List.filterMap_some, List.filterMap_eq_nil_iff.mpr fun _ _ => rfl, List.nil_append]

end Emitted

/-! ## Tables -/

namespace Table

/-- What a table makes of each instruction, by ordinal: mask, literal bits, symbol and rule. -/
def patterns (t : Table) : List (Word × Word × String × Rule) :=
  t.members.map fun (i, rule) => (i.mask, i.value, symbol i.id, rule)

variable {order order' : TrialOrder} {instructions instructions' : List Instruction} {t u : Table}

/-- Arms tell the patterns. -/
theorem patterns_eq_of_arms (same : t.arms = u.arms) : t.patterns = u.patterns := by
  have pattern (t : Table) : t.patterns = t.arms.map fun a =>
      (a.mask, a.value, a.symbol, ⟨a.rs1.isSome, a.rs2.isSome, a.rd.isSome, a.immediate⟩) := by
    rw [patterns, Table.arms, List.map_map]
    refine List.map_congr_left fun member _ => ?_
    obtain ⟨i, rs1, rs2, rd, immediate⟩ := member
    cases rs1 <;> cases rs2 <;> cases rd <;> rfl
  rw [pattern, pattern, same]

namespace DerivedFrom

variable (table : DerivedFrom order instructions t)
include table

/-- A probe finds the pattern with its mask and literal bits. -/
theorem find?_iff_patterns {mask value : Word} {p : Probe} :
    t.probes.find? mask value = some p ↔
      ∃ n symbol rule, t.patterns[n]? = some (mask, value, symbol, rule) ∧
        p = ⟨mask, value, n, rule⟩ := by
  rw [table.find?_iff]
  simp only [patterns, members, table.instructions_eq, List.getElem?_map, Option.map_eq_some_iff,
    Prod.exists, table.getElem?_zip, Prod.mk.injEq]
  constructor
  · intro found
    obtain ⟨n, i, rule, listed, derived, sameMask, sameValue, same⟩ := found
    exact ⟨n, _, rule, ⟨i, rule, ⟨listed, derived⟩, sameMask, sameValue, rfl, rfl⟩, same⟩
  · intro found
    obtain ⟨n, _, _, ⟨i, rule, ⟨listed, derived⟩, sameMask, sameValue, rfl, rfl⟩, same⟩ := found
    exact ⟨n, i, rule, listed, derived, sameMask, sameValue, same⟩

variable (other : DerivedFrom order' instructions' u)
include other

/-- The mask table goes by the keys of the arms. -/
theorem maskTable_eq_of_arms (same : t.arms = u.arms) : t.plan.maskTable = u.plan.maskTable := by
  have keys : (instructions.map fun i => (i.mask, i.value)) =
      instructions'.map fun i => (i.mask, i.value) := by
    rw [← table.map_arms, ← other.map_arms, same]
  rw [table.plan_eq, other.plan_eq, MaskGroups.ofInstructions_eq_of_keys keys]
  rfl

/-- Decoding goes by the patterns, the mask table and the trials. -/
theorem decode_eq_of_patterns (patterns : t.patterns = u.patterns)
    (maskTable : t.plan.maskTable = u.plan.maskTable) (trials : t.plan.trials = u.plan.trials)
    (raw : Word) : t.decode raw = u.decode raw := by
  have find (mask value : Word) : t.probes.find? mask value = u.probes.find? mask value :=
    Option.ext fun p => by rw [table.find?_iff_patterns, other.find?_iff_patterns, patterns]
  have probe : t.probes.probe raw = u.probes.probe raw :=
    funext fun mask => by rw [ProbeTable.probe, ProbeTable.probe, find]
  have dispatch : t.plan.dispatch raw.opcode = u.plan.dispatch raw.opcode := by
    rw [Plan.dispatch, Plan.dispatch, maskTable, trials]
  rw [decode, decode, dispatch, probe]

/-- The text of a decoder tells the arms and the trials of its table, whatever it is made for. -/
theorem eq_of_text (options : Options) {source source' : Artifact.Source}
    (rendered : render t .decoder options = .ok source)
    (rendered' : render u .decoder options = .ok source') (same : source.text = source'.text) :
    t.arms = u.arms ∧ t.plan.trials = u.plan.trials := by
  obtain ⟨target, shape, space⟩ := options
  cases target with
  | rust =>
    cases rendered
    cases rendered'
    dsimp only at same
    have module : t.lookupModule = u.lookupModule :=
      eq_of_read? (read?_lines table.legible) (read?_lines other.legible) same
    obtain ⟨-, trials, -, -, arms, -⟩ := LookupModule.mk.inj module
    exact ⟨List.map_injective_iff.mpr moduleArm_injective arms, trials⟩
  | cpp =>
    cases rendered
    cases rendered'
    cases shape with
    | switch =>
      dsimp only [cppDecoderLines] at same
      have module : t.switchModule = u.switchModule :=
        eq_of_read? (read?_switchLines table.legibleSwitch space)
          (read?_switchLines other.legibleSwitch space) same
      obtain ⟨-, body, arms⟩ := SwitchModule.mk.inj module
      -- This text has no table of trials: its cases hold them, behind those of sole masks.
      have cases := flatMap_caseStatements_injective (List.append_cancel_right body)
      refine ⟨List.map_injective_iff.mpr keyedArm_injective arms, ?_⟩
      have trials := congrArg (List.filterMap trial?) cases
      rwa [filterMap_trial?, filterMap_trial?] at trials
    | flat =>
      dsimp only [cppDecoderLines] at same
      have module : t.flatModule = u.flatModule :=
        eq_of_read? (read?_flatLines table.legibleFlat space)
          (read?_flatLines other.legibleFlat space) same
      obtain ⟨-, -, trials, arms⟩ := FlatModule.mk.inj module
      exact ⟨List.map_injective_iff.mpr keyedArm_injective arms, trials⟩

end DerivedFrom

end Table

/-- Every table has a decoder of each kind. If two tables have the same one, they have the same masks,
trials and patterns, and decode every word to the same ordinal and operands, or to the same error. -/
theorem render_decoder_faithful {order order' : TrialOrder}
    {instructions instructions' : List Instruction} {t u : Table}
    (built : Table.ofInstructions order instructions = .ok t)
    (built' : Table.ofInstructions order' instructions' = .ok u) (options : Options) :
    ∃ source source', render t .decoder options = .ok source ∧
      render u .decoder options = .ok source' ∧
      (source.text = source'.text →
        t.plan.maskTable = u.plan.maskTable ∧ t.plan.trials = u.plan.trials ∧
          t.patterns = u.patterns ∧ ∀ raw, t.decode raw = u.decode raw) := by
  have table := Table.derivedFrom_of_ofInstructions built
  have other := Table.derivedFrom_of_ofInstructions built'
  have rendered (t : Table) : ∃ source, render t .decoder options = .ok source := by
    obtain ⟨target, shape, space⟩ := options
    cases target <;> exact ⟨_, rfl⟩
  obtain ⟨source, rendering⟩ := rendered t
  obtain ⟨source', rendering'⟩ := rendered u
  refine ⟨source, source', rendering, rendering', fun same => ?_⟩
  obtain ⟨arms, trials⟩ := table.eq_of_text other options rendering rendering' same
  have maskTable := table.maskTable_eq_of_arms other arms
  have patterns := Table.patterns_eq_of_arms arms
  exact ⟨maskTable, trials, patterns, table.decode_eq_of_patterns other patterns maskTable trials⟩

/-- The table with an overlap, under another name with the same symbol. -/
def Overlapping.renamed : List Instruction :=
  [system, { ecall with id := "eCall", id_ne := by decide }, beq]

/-- A decoder names instructions by their symbols, so it does not tell which of the names it was. -/
theorem render_decoder_faithful_renamed : ∃ t u source,
    Table.ofInstructions .specificity Overlapping.instructions = .ok t ∧
      Table.ofInstructions .specificity Overlapping.renamed = .ok u ∧
      render t .decoder {} = .ok source ∧ render u .decoder {} = .ok source ∧
      t.name 1 ≠ u.name 1 ∧ ∀ raw, t.decode raw = u.decode raw := by
  obtain ⟨t, built⟩ := Overlapping.exists_table
  obtain ⟨u, built'⟩ : ∃ u, Table.ofInstructions .specificity Overlapping.renamed = .ok u :=
    exists_of_isOk (by decide +kernel)
  have table := Table.derivedFrom_of_ofInstructions built
  have other := Table.derivedFrom_of_ofInstructions built'
  have arms : t.arms = u.arms := by
    have rules : t.rules = [⟨true, false, true, .i⟩, ⟨false, false, false, .absent⟩,
        ⟨true, true, false, .b⟩] := Except.ok.inj (table.rules_ok.symm.trans rfl)
    have same : t.rules = u.rules := Except.ok.inj (table.rules_ok.symm.trans other.rules_ok)
    rw [Table.arms, Table.arms, Table.members, Table.members, table.instructions_eq,
      other.instructions_eq, ← same, rules]
    decide +kernel
  have groups : MaskGroups.ofInstructions Overlapping.instructions =
      MaskGroups.ofInstructions Overlapping.renamed := MaskGroups.ofInstructions_eq_of_keys rfl
  have decoder : SwitchDecoder.ofTable t = SwitchDecoder.ofTable u := by
    rw [SwitchDecoder.ofTable, SwitchDecoder.ofTable, arms, table.groups_eq, other.groups_eq,
      table.plan_eq, other.plan_eq, groups]
  obtain ⟨source, source', rendered, rendered', tells⟩ := render_decoder_faithful built built' {}
  have same : source = source' := by
    cases rendered
    cases rendered'
    dsimp only [cppDecoderLines]
    rw [decoder]
  subst same
  obtain ⟨-, -, -, decode⟩ := tells rfl
  refine ⟨t, u, source, built, built', rendered, rendered', ?_, decode⟩
  rw [table.name_eq (i := Overlapping.ecall) rfl, other.name_eq rfl]
  decide

end DecodeTables
