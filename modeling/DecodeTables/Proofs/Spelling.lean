import DecodeTables.Artifact.Render
import DecodeTables.Report
import DecodeTables.SelfCheck
import DecodeTables.Proofs.Instruction

/-!
# How a description is spelled

An entry can be written in many ways: hexadecimal has several spellings of a word, fields may be
listed in any order and more than once, and extensions are not looked at. Entries that differ in
nothing else are `Entry.Alike`. They make instructions that differ in extensions, if any
(`Instruction.ofEntry_endsAlike`), and building a table hands extensions on without reading them
(`Table.ofInstructions_bare`). Nothing that is made from a table can tell them either
(`Table.SeenAlike.of_bare_eq`), so the spelling of a description is not seen in its table
(`ofDescription_alike`).
-/

namespace DecodeTables

/-- Entries that say the same: they may write their words, order and repeat their fields, and list
extensions as they like. -/
structure Entry.Alike (a b : Entry) : Prop where
  encoding : a.encoding = b.encoding
  mask : Text.Hex.parse? a.mask = Text.Hex.parse? b.mask
  value : Text.Hex.parse? a.value = Text.Hex.parse? b.value
  fields (name : String) : name ∈ a.variableFields ↔ name ∈ b.variableFields

namespace Defect

/-- The kinds of defects. -/
inductive Kind where
  | malformed
  | ambiguous
  | unsupportedFields
  deriving DecidableEq, Repr

def kind : Defect → Kind
  | malformed _ _ => .malformed
  | ambiguous _ _ _ _ => .ambiguous
  | unsupportedFields _ _ => .unsupportedFields

/-- The instructions that a defect names. -/
def ids : Defect → List String
  | malformed id (.symbolTaken _ earlier) => [id, earlier]
  | malformed id _ => [id]
  | ambiguous first second _ _ => [first, second]
  | unsupportedFields id _ => [id]

/-- Defects of the same kind about the same instructions. Their wording may quote different
spellings. -/
structure Alike (d e : Defect) : Prop where
  kind : d.kind = e.kind
  ids : d.ids = e.ids

theorem Alike.refl (d : Defect) : d.Alike d := ⟨rfl, rfl⟩

end Defect

/-! ## Fields -/

namespace Field

/-- Only which names there are tells what set of fields is read, if any. -/
theorem normalize_ofNames {names others : List String}
    (same : ∀ name, name ∈ names ↔ name ∈ others) :
    (names.mapM ofName?).map normalize = (others.mapM ofName?).map normalize := by
  have known : (∃ fields, names.mapM ofName? = some fields) ↔
      ∃ fields, others.mapM ofName? = some fields := by
    simp only [exists_mapM_eq_some_iff, same]
  cases first : names.mapM ofName? with
  | none =>
    cases second : others.mapM ofName? with
    | none => rfl
    | some fields =>
      obtain ⟨_, read⟩ := known.mpr ⟨fields, second⟩
      cases first.symm.trans read
  | some fields =>
    obtain ⟨fields', second⟩ := known.mp ⟨fields, first⟩
    rw [second, Option.map_some, Option.map_some, normalize_congr]
    intro f
    simp only [mem_of_mapM_eq_some first, mem_of_mapM_eq_some second, same]

end Field

namespace Instruction

variable {id : String} {a b : Entry}

/-- An instruction without its extensions. -/
def bare (i : Instruction) : Instruction := { i with extensions := [] }

theorem ofEntry_endsAlike (alike : a.Alike b) :
    EndsAlike Defect.Alike (fun i j => i.bare = j.bare) (ofEntry id a) (ofEntry id b) := by
  unfold ofEntry
  rw [← alike.mask, ← alike.value, ← alike.encoding]
  cases Text.Hex.parse? a.mask with
  | none => exact .error ⟨rfl, rfl⟩
  | some mask =>
    cases Text.Hex.parse? a.value with
    | none => exact .error ⟨rfl, rfl⟩
    | some value =>
      have read := Field.normalize_ofNames alike.fields
      cases first : a.variableFields.mapM Field.ofName? with
      | none =>
        rw [first, Option.map_none, eq_comm, Option.map_eq_none_iff] at read
        rw [read]
        exact .error ⟨rfl, rfl⟩
      | some fields =>
        rw [first, Option.map_some, eq_comm, Option.map_eq_some_iff] at read
        obtain ⟨others, second, same⟩ := read
        rw [second]
        dsimp only
        rw [ofEncoding_congr same]
        cases ofEncoding id a.encoding mask value fields with
        | error d => exact .error (.refl d)
        | ok i => exact .ok rfl

/-! ## Tables without extensions -/

@[simp] theorem bare_mask (i : Instruction) : i.bare.mask = i.mask := rfl

@[simp] theorem bare_opcode (i : Instruction) : i.bare.opcode = i.opcode := rfl

end Instruction

namespace MaskGroups

@[simp] theorem ofInstructions_bare (instructions : List Instruction) :
    ofInstructions (instructions.map Instruction.bare) = ofInstructions instructions := by
  simp only [ofInstructions, List.filter_map, List.map_map]
  rfl

end MaskGroups

namespace Table

variable (t : Table)

/-- A table of the instructions without their extensions. -/
def bare : Table := { t with instructions := t.instructions.map Instruction.bare }

theorem ofInstructions_bare (order : TrialOrder) (instructions : List Instruction) :
    ofInstructions order (instructions.map Instruction.bare) =
      (ofInstructions order instructions).map bare := by
  have ids : (instructions.map Instruction.bare).map Instruction.id =
      instructions.map Instruction.id := List.map_map
  have rules : (instructions.map Instruction.bare).mapM Instruction.rule =
      instructions.mapM Instruction.rule := List.mapM_map
  have probes (numbering : Numbering) (rules : List Rule) :
      ProbeTable.build numbering ((instructions.map Instruction.bare).zip rules) =
        ProbeTable.build numbering (instructions.zip rules) := by
    rw [ProbeTable.build, List.zip_map_left, List.foldlM_map]
    rfl
  simp only [ofInstructions, ids, rules, probes, MaskGroups.ofInstructions_bare]
  cases Numbering.ofNames (instructions.map Instruction.id) with
  | error e => rfl
  | ok numbering =>
    cases instructions.mapM Instruction.rule with
    | error e => rfl
    | ok rules =>
      simp only [bind, Except.bind]
      cases ProbeTable.build numbering (instructions.zip rules) <;> rfl

/-! ### What is made from a table -/

theorem members_bare : t.bare.members = t.members.map fun m => (m.1.bare, m.2) :=
  List.zip_map_left

theorem contenders_bare (opcode : Nat) (trials : List Word) :
    t.bare.contenders opcode trials =
      (t.contenders opcode trials).map fun c => (c.1, c.2.1, c.2.2.bare) := by
  rw [contenders, contenders, bare, List.zipIdx_map, List.filterMap_map, List.map_filterMap]
  refine List.filterMap_congr fun e _ => ?_
  obtain ⟨i, ordinal⟩ := e
  by_cases own : i.opcode = opcode
  · simp only [Function.comp_def, Prod.map, id, Instruction.bare_opcode, Instruction.bare_mask, own,
      if_true, Option.map_map]
  · simp only [Function.comp, Prod.map, id, Instruction.bare_opcode, own, if_false, Option.map_none]

theorem overlaps_bare : t.bare.overlaps = t.overlaps := by
  rw [overlaps, overlaps]
  refine List.flatMap_congr fun e _ => ?_
  simp only [overlapsAmong, contenders_bare, List.flatMap_map, List.filterMap_map]
  rfl

theorem report_bare : t.bare.report = t.report := by
  rw [report, overlaps_bare]
  rfl

theorem decode_bare (raw : Word) : t.bare.decode raw = t.decode raw := rfl

theorem disassemble_bare (decoded : Decoded) :
    t.bare.disassemble decoded = t.disassemble decoded := rfl

theorem encode?_bare (n : Nat) (operands : Operands) :
    t.bare.instructions[n]?.map (·.encode? operands) =
      t.instructions[n]?.map (·.encode? operands) := by
  rw [bare, List.getElem?_map, Option.map_map]
  rfl

theorem checks_bare :
    t.bare.checks = t.checks.map fun c => (c.1, c.2.1.bare, c.2.2) := by
  rw [checks, checks, members_bare, List.zipIdx_map, List.flatMap_map, List.map_flatMap]
  refine List.flatMap_congr fun e _ => ?_
  rw [List.map_map]
  rfl

theorem selfCheck_bare : t.bare.selfCheck = t.selfCheck := by
  rw [selfCheck, selfCheck, checks_bare, forM_eq_map_mapM, forM_eq_map_mapM, List.mapM_map,
    List.length_map]
  rfl

theorem arms_bare : t.bare.arms = t.arms := by
  rw [arms, members_bare, List.map_map]
  rfl

theorem render_bare (artifact : Artifact) (options : Artifact.Options) :
    artifact.render t.bare options = artifact.render t options := by
  have items : Artifact.Items.ofTable t.bare = .ofTable t := rfl
  have callbacks : Artifact.Callbacks.ofTable t.bare = .ofTable t := rfl
  have switch : Artifact.SwitchDecoder.ofTable t.bare = .ofTable t := by
    rw [Artifact.SwitchDecoder.ofTable, arms_bare]
    rfl
  have flat : Artifact.FlatDecoder.ofTable t.bare = .ofTable t := by
    rw [Artifact.FlatDecoder.ofTable, arms_bare]
    rfl
  have lookup : Artifact.LookupDecoder.ofTable t.bare = .ofTable t := by
    rw [Artifact.LookupDecoder.ofTable, arms_bare]
    rfl
  simp only [Artifact.render, Artifact.cppDecoderLines, items, callbacks, switch, flat, lookup]

/-- All that can be seen of two tables is the same. -/
structure SeenAlike (t u : Table) : Prop where
  report : t.report = u.report
  decode (raw : Word) : t.decode raw = u.decode raw
  disassemble (decoded : Decoded) : t.disassemble decoded = u.disassemble decoded
  encode? (ordinal : Nat) (operands : Operands) :
    t.instructions[ordinal]?.map (·.encode? operands) =
      u.instructions[ordinal]?.map (·.encode? operands)
  selfCheck : t.selfCheck = u.selfCheck
  render (artifact : Artifact) (options : Artifact.Options) :
    artifact.render t options = artifact.render u options

theorem SeenAlike.of_bare_eq {t u : Table} (same : t.bare = u.bare) : SeenAlike t u where
  report := by rw [← report_bare t, same, report_bare]
  decode raw := by rw [← decode_bare t, same, decode_bare]
  disassemble decoded := by rw [← disassemble_bare t, same, disassemble_bare]
  encode? ordinal operands := by rw [← encode?_bare t, same, encode?_bare]
  selfCheck := by rw [← selfCheck_bare t, same, selfCheck_bare]
  render artifact options := by rw [← render_bare t, same, render_bare]

/-! ## Two descriptions -/

/-- Instructions that differ in extensions only have tables that are seen alike, and what keeps one
list from having a table keeps the other. -/
theorem ofInstructions_endsAlike (order : TrialOrder) {instructions others : List Instruction}
    (same : List.Forall₂ (fun i j => i.bare = j.bare) instructions others) :
    EndsAlike Defect.Alike SeenAlike (ofInstructions order instructions)
      (ofInstructions order others) := by
  have lists : instructions.map Instruction.bare = others.map Instruction.bare := by
    rw [← List.forall₂_eq_eq_eq, List.forall₂_map_left_iff, List.forall₂_map_right_iff]
    exact same
  have runs : (ofInstructions order instructions).map bare =
      (ofInstructions order others).map bare := by
    rw [← ofInstructions_bare, ← ofInstructions_bare, lists]
  exact (EndsAlike.of_map_eq runs).mono (fun d _ equal => equal ▸ .refl d) fun _ _ => .of_bare_eq

end Table

/-- The spelling of entries is not seen in a table. Of two descriptions that list the same identifiers
with entries that are alike, either both or neither has a table, under any order of trials. If both
have, nothing that is made from the two tables differs; if neither has, the defects are of one kind
and name the same instructions. -/
theorem ofDescription_alike (order : TrialOrder) {description other : Description}
    (alike : List.Forall₂ (fun a b => a.1 = b.1 ∧ a.2.Alike b.2)
      description.entries other.entries) :
    EndsAlike Defect.Alike Table.SeenAlike (Table.ofDescription order description)
      (Table.ofDescription order other) := by
  refine (EndsAlike.mapM alike fun a b entries => ?_).bind fun _ _ same =>
    Table.ofInstructions_endsAlike order same
  rw [entries.1]
  exact Instruction.ofEntry_endsAlike entries.2

/-! An entry in two spellings. -/

namespace Spelled

def plain : Description where
  entries := [("addi", {
    encoding := "-----------------000-----0010011"
    variableFields := ["rd", "rs1", "imm12"]
    extensions := ["rv_i"]
    value := "0x13"
    mask := "0x707f" })]
  nodup := by decide

def strange : Description where
  entries := [("addi", {
    encoding := "-----------------000-----0010011"
    variableFields := ["imm12", "rs1", "imm12", "rd"]
    value := "+0_013"
    mask := " 0X0000_707F\n" })]
  nodup := by decide

theorem alike :
    List.Forall₂ (fun a b => a.1 = b.1 ∧ a.2.Alike b.2) plain.entries strange.entries := by
  refine .cons ⟨rfl, rfl, by decide, by decide, fun name => ?_⟩ .nil
  simp only [List.mem_cons, List.not_mem_nil, or_false]
  tauto

theorem exists_table : ∃ t, Table.ofDescription .specificity plain = .ok t :=
  exists_of_isOk (by decide +kernel)

end Spelled

theorem ofDescription_alike_spelled : ∃ t u,
    Table.ofDescription .specificity Spelled.plain = .ok t ∧
      Table.ofDescription .specificity Spelled.strange = .ok u ∧ t.SeenAlike u := by
  have runs := ofDescription_alike .specificity Spelled.alike
  obtain ⟨t, built⟩ := Spelled.exists_table
  cases built' : Table.ofDescription .specificity Spelled.strange with
  | ok u =>
    rw [built, built'] at runs
    cases runs with
    | ok seen => exact ⟨t, u, built, rfl, seen⟩
  | error e =>
    rw [built, built'] at runs
    cases runs

end DecodeTables
